import Pccl.Shared.Table

set_option autoImplicit false

namespace Pccl.Interner

variable {Key : Type} [DecidableEq Key]

def assign (ids : Table Key Nat) (key : Key) : Table Key Nat :=
  if key ∈ ids then ids else ids.insert key ids.size

def assignAll (keys : List Key) (ids : Table Key Nat) : Table Key Nat := keys.foldl assign ids

def inverse (ids : Table Key Nat) : Table Nat Key :=
  ids.pairs.foldl (fun keys pair => keys.insert pair.2 pair.1) ∅

structure Dense (ids : Table Key Nat) : Prop where
  unique : ∀ first second id, ids.lookup first = some id → ids.lookup second = some id → first = second
  filled : ∀ id, (∃ key, ids.lookup key = some id) ↔ id < ids.size

theorem Dense.empty : Dense (∅ : Table Key Nat) where
  unique _ _ _ found := by cases found
  filled id := by
    refine iff_of_false ?_ (Nat.not_lt_zero id)
    rintro ⟨key, found⟩
    cases found

theorem lookup_assign (ids : Table Key Nat) (key other : Key) :
    (assign ids key).lookup other =
      if other = key then some ((ids.lookup key).getD ids.size) else ids.lookup other := by
  unfold assign
  split
  next known =>
    obtain ⟨id, found⟩ := Option.isSome_iff_exists.mp (AList.lookup_isSome.mpr known)
    rw [found, Option.getD_some]
    split
    next same => rw [same, found]
    next => rfl
  next fresh => rw [Table.lookup_insert_iff, AList.lookup_eq_none.mpr fresh, Option.getD_none]

theorem lookup_assign_of_some {ids : Table Key Nat} {key : Key} {id : Nat} (next : Key)
    (found : ids.lookup key = some id) : (assign ids next).lookup key = some id := by
  rw [lookup_assign]
  split
  next same =>
    subst same
    rw [found, Option.getD_some]
  next => exact found

theorem Dense.assign {ids : Table Key Nat} (dense : Dense ids) (key : Key) :
    Dense (Interner.assign ids key) := by
  unfold Interner.assign
  split
  next => exact dense
  next fresh =>
    have above {other : Key} {id : Nat} (found : ids.lookup other = some id) : id < ids.size :=
      (dense.filled id).mp ⟨other, found⟩
    constructor
    · intro first second id here there
      rw [Table.lookup_insert_iff] at here there
      split at here <;> split at there
      next one two => rw [one, two]
      next =>
        cases here
        exact absurd (above there) (lt_irrefl _)
      next =>
        cases there
        exact absurd (above here) (lt_irrefl _)
      next => exact dense.unique first second id here there
    · intro id
      rw [Table.size_insert ids key ids.size fresh, Nat.lt_succ_iff_lt_or_eq, ← dense.filled]
      constructor
      · rintro ⟨other, found⟩
        rw [Table.lookup_insert_iff] at found
        split at found
        · exact Or.inr (Option.some.inj found).symm
        · exact Or.inl ⟨other, found⟩
      · rintro (⟨other, found⟩ | rfl)
        · refine ⟨other, ?_⟩
          rw [Table.lookup_insert_iff, if_neg ?_, found]
          rintro rfl
          exact fresh (AList.lookup_isSome.mp (by rw [found]; rfl))
        · exact ⟨key, AList.lookup_insert ids⟩

theorem Dense.assignAll {ids : Table Key Nat} (dense : Dense ids) (keys : List Key) :
    Dense (Interner.assignAll keys ids) := by
  induction keys generalizing ids with
  | nil => exact dense
  | cons key keys ih => exact ih (dense.assign key)

theorem lookup_assignAll_of_some {ids : Table Key Nat} {key : Key} {id : Nat} (keys : List Key)
    (found : ids.lookup key = some id) : (assignAll keys ids).lookup key = some id := by
  induction keys generalizing ids with
  | nil => exact found
  | cons next keys ih => exact ih (lookup_assign_of_some next found)

theorem mem_assign (ids : Table Key Nat) (key other : Key) :
    other ∈ assign ids key ↔ other = key ∨ other ∈ ids := by
  unfold assign
  split
  next known => exact ⟨Or.inr, fun either => either.elim (fun same => same ▸ known) id⟩
  next => rw [AList.mem_insert]

theorem mem_assignAll (keys : List Key) (ids : Table Key Nat) (other : Key) :
    other ∈ assignAll keys ids ↔ other ∈ keys ∨ other ∈ ids := by
  induction keys generalizing ids with
  | nil => simp [assignAll]
  | cons key keys ih =>
    change other ∈ assignAll keys (assign ids key) ↔ _
    rw [ih, mem_assign, List.mem_cons]
    tauto

theorem Dense.lookup_inverse {ids : Table Key Nat} (dense : Dense ids) (key : Key) (id : Nat) :
    (inverse ids).lookup id = some key ↔ ids.lookup key = some id := by
  have loop (pairs : List (Key × Nat)) (keys : Table Nat Key)
      (unique : ∀ first ∈ pairs, ∀ second ∈ pairs, first.2 = second.2 → first.1 = second.1) :
      (pairs.foldl (fun keys pair => keys.insert pair.2 pair.1) keys).lookup id = some key ↔
        (key, id) ∈ pairs ∨ keys.lookup id = some key ∧ id ∉ pairs.map Prod.snd := by
    induction pairs generalizing keys with
    | nil => simp
    | cons pair pairs ih =>
      rw [List.foldl_cons, ih _ fun first here second there =>
        unique first (List.mem_cons_of_mem _ here) second (List.mem_cons_of_mem _ there),
        Table.lookup_insert_iff, List.mem_cons, List.map_cons, List.mem_cons]
      by_cases same : id = pair.2
      · -- The number is this pair's, and a later pair with it has the same key.
        have later : id ∈ pairs.map Prod.snd → (pair.1, id) ∈ pairs := by
          intro again
          obtain ⟨other, present, equal⟩ := List.mem_map.mp again
          have agree := unique pair List.mem_cons_self other (List.mem_cons_of_mem _ present)
            (same ▸ equal.symm)
          rw [agree, ← equal]
          exact present
        rw [if_pos same]
        constructor
        · rintro (present | ⟨here, _⟩)
          · exact Or.inl (Or.inr present)
          · cases here
            exact Or.inl (Or.inl (Prod.ext rfl same))
        · rintro ((here | present) | ⟨_, absent⟩)
          · cases here
            by_cases again : id ∈ pairs.map Prod.snd
            · exact Or.inl (later again)
            · exact Or.inr ⟨rfl, again⟩
          · exact Or.inl present
          · exact absurd (Or.inl same) absent
      · have apart : (key, id) ≠ pair := fun equal => same (congrArg Prod.snd equal)
        simp [same, apart]
  have distinct : ∀ first ∈ ids.pairs, ∀ second ∈ ids.pairs, first.2 = second.2 → first.1 = second.1 := by
    intro first here second there same
    refine dense.unique first.1 second.1 first.2 (Table.mem_pairs_iff.mp here) ?_
    rw [same]
    exact Table.mem_pairs_iff.mp there
  rw [inverse, loop ids.pairs ∅ distinct, Table.mem_pairs_iff]
  simp

end Pccl.Interner
