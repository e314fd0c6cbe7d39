import Mathlib

set_option autoImplicit false

namespace Pccl.Lanes

variable {Word Item : Type}

def pass (count : Nat) (take : Word → Item → Word) (items : Nat → Item) (lanes : Nat → Word) :
    Nat → Word :=
  (List.range count).foldl
    (fun lanes lane place => if place = lane then take (lanes lane) (items lane) else lanes place) lanes

def halve (offset : Nat) (combine : Word → Word → Word) (lanes : Nat → Word) : Nat → Word :=
  (List.range offset).foldl
    (fun lanes lane place =>
      if place = lane then combine (lanes lane) (lanes (lane + offset)) else lanes place) lanes

def tree (combine : Word → Word → Word) : (levels : Nat) → (lanes : Nat → Word) → Word
  | 0, lanes => lanes 0
  | levels + 1, lanes => tree combine levels (halve (2 ^ levels) combine lanes)

def stride (width : Nat) (take : Word → Item → Word) (items : Nat → Item) (start stop : Nat)
    (lanes : Nat → Word) : Nat → Word :=
  (List.range ((stop - start + width - 1) / width)).foldl
    (fun lanes turn =>
      pass (min width (stop - (start + turn * width))) take
        (fun lane => items (start + turn * width + lane)) lanes)
    lanes

/-- Neither argument can be changed without changing the result. -/
structure Cancels (take : Word → Item → Word) : Prop where
  left : ∀ word other item, take word item = take other item → word = other
  right : ∀ word item other, take word item = take word other → item = other

/-- Among the first `bound` lanes the arrays differ in this one. -/
structure DiffersAt (bound : Nat) (first second : Nat → Word) (place : Nat) : Prop where
  within : place < bound
  differs : first place ≠ second place
  agrees : ∀ lane < bound, lane ≠ place → first lane = second lane

section Passes

variable (take : Word → Item → Word) (items : Nat → Item) (lanes : Nat → Word)

theorem pass_apply (count lane : Nat) :
    pass count take items lanes lane =
      if lane < count then take (lanes lane) (items lane) else lanes lane := by
  induction count generalizing lane with
  | zero => simp [pass]
  | succ count ih =>
    have last : pass (count + 1) take items lanes lane = if lane = count then
        take (pass count take items lanes count) (items count) else pass count take items lanes lane := by
      simp [pass, List.range_succ]
    rw [last]
    by_cases here : lane = count
    · subst here
      simp [ih]
    · rw [if_neg here, ih]
      exact if_congr (by omega) rfl rfl

theorem halve_apply (combine : Word → Word → Word) (offset : Nat) {lane : Nat} (low : lane < offset) :
    halve offset combine lanes lane = combine (lanes lane) (lanes (lane + offset)) := by
  -- The lanes behind are not written, so each turn reads what was there at the start.
  have turns (count : Nat) (few : count ≤ offset) (lane : Nat) : (List.range count).foldl
      (fun lanes lane place =>
        if place = lane then combine (lanes lane) (lanes (lane + offset)) else lanes place) lanes
      lane = if lane < count then combine (lanes lane) (lanes (lane + offset)) else lanes lane := by
    induction count generalizing lane with
    | zero => simp
    | succ count ih =>
      have before := ih (by omega)
      rw [List.range_succ, List.foldl_append, List.foldl_cons, List.foldl_nil]
      by_cases here : lane = count
      · subst here
        have behind : ¬ lane + offset < lane := by omega
        simp [before, behind]
      · rw [if_neg here, before]
        exact if_congr (by omega) rfl rfl
  rw [halve, turns offset le_rfl, if_pos low]

end Passes

section Differences

variable {take : Word → Item → Word} {first second : Nat → Word} {place : Nat}

theorem DiffersAt.pass {width count : Nat} (differs : DiffersAt width first second place)
    (left : ∀ word other item, take word item = take other item → word = other) {items others : Nat → Item}
    (same : ∀ lane < count, items lane = others lane) :
    DiffersAt width (pass count take items first) (pass count take others second) place := by
  refine ⟨differs.within, fun agree => ?_, fun lane low apart => ?_⟩
  · rw [pass_apply, pass_apply] at agree
    split at agree
    next there =>
      rw [same place there] at agree
      exact differs.differs (left _ _ _ agree)
    next => exact differs.differs agree
  · rw [pass_apply, pass_apply, differs.agrees lane low apart]
    split
    next there => rw [same lane there]
    next => rfl

theorem pass_congr {count : Nat} {items others : Nat → Item}
    (same : ∀ lane < count, items lane = others lane) (lanes : Nat → Word) :
    pass count take items lanes = pass count take others lanes := by
  funext lane
  rw [pass_apply, pass_apply]
  split
  next there => rw [same lane there]
  next => rfl

theorem pass_differs {width count : Nat} {items others : Nat → Item} (low : place < count)
    (narrow : count ≤ width) (differ : ∀ word, take word (items place) ≠ take word (others place))
    (same : ∀ lane < count, lane ≠ place → items lane = others lane) (lanes : Nat → Word) :
    DiffersAt width (pass count take items lanes) (pass count take others lanes) place := by
  refine ⟨by omega, ?_, fun lane _ apart => ?_⟩
  · rw [pass_apply, pass_apply, if_pos low, if_pos low]
    exact differ _
  · rw [pass_apply, pass_apply]
    split
    next there => rw [same lane there apart]
    next => rfl

theorem stride_congr {width start stop : Nat} {items others : Nat → Item}
    (same : ∀ index, start ≤ index → index < stop → items index = others index) (lanes : Nat → Word) :
    stride width take items start stop lanes = stride width take others start stop lanes := by
  unfold stride
  refine List.foldl_ext _ _ _ fun lanes turn _ => pass_congr (fun lane low => ?_) lanes
  exact same _ (by omega) (by omega)

theorem stride_differs {width start stop : Nat} (positive : 0 < width) (left : ∀ word other item,
    take word item = take other item → word = other) {items others : Nat → Item} {index : Nat}
    (after : start ≤ index) (before : index < stop)
    (differ : ∀ word, take word (items index) ≠ take word (others index))
    (same : ∀ other, start ≤ other → other < stop → other ≠ index → items other = others other)
    (lanes : Nat → Word) :
    DiffersAt width (stride width take items start stop lanes)
      (stride width take others start stop lanes) ((index - start) % width) := by
  let turns (items : Nat → Item) (count : Nat) : Nat → Word := (List.range count).foldl
    (fun lanes turn => pass (min width (stop - (start + turn * width))) take
      (fun lane => items (start + turn * width + lane)) lanes) lanes
  have succ (items : Nat → Item) (count : Nat) : turns items (count + 1) =
      pass (min width (stop - (start + count * width))) take
        (fun lane => items (start + count * width + lane)) (turns items count) := by
    simp only [turns, List.range_succ, List.foldl_append, List.foldl_cons, List.foldl_nil]
  have reached (count : Nat) :
      (start + count * width ≤ index → turns items count = turns others count) ∧
      (index < start + count * width →
        DiffersAt width (turns items count) (turns others count) ((index - start) % width)) := by
    induction count with
    | zero => exact ⟨fun _ => rfl, fun early => by omega⟩
    | succ count ih =>
      have wider : start + (count + 1) * width = start + count * width + width := by ring
      rw [succ, succ, wider]
      refine ⟨fun later => ?_, fun early => ?_⟩
      · rw [ih.1 (by omega)]
        exact pass_congr (fun lane low => same _ (by omega) (by omega) (by omega)) _
      · by_cases now : start + count * width ≤ index
        · rw [ih.1 now]
          have lane : (index - start) % width = index - (start + count * width) := by
            have split : index - start = index - (start + count * width) + width * count := by
              have commuted := Nat.mul_comm width count
              omega
            rw [split, Nat.add_mul_mod_self_left, Nat.mod_eq_of_lt (by omega)]
          rw [lane]
          refine pass_differs (by omega) (by omega) ?_ (fun other low apart => ?_) _
          · rw [Nat.add_sub_cancel' now]
            exact differ
          · exact same _ (by omega) (by omega) (by omega)
        · exact (ih.2 (by omega)).pass left fun lane low => same _ (by omega) (by omega) (by omega)
  have enough : stop - start ≤ (stop - start + width - 1) / width * width := by
    have := Nat.div_add_mod (stop - start + width - 1) width
    have := Nat.mod_lt (stop - start + width - 1) positive
    rw [Nat.mul_comm]
    omega
  exact (reached _).2 (by omega)

theorem halve_congr {combine : Word → Word → Word} {offset : Nat}
    (same : ∀ lane < 2 * offset, first lane = second lane) :
    ∀ lane < offset, halve offset combine first lane = halve offset combine second lane := by
  intro lane low
  rw [halve_apply _ _ _ low, halve_apply _ _ _ low, same lane (by omega), same _ (by omega)]

theorem DiffersAt.halve {combine : Word → Word → Word} (cancels : Cancels combine) {offset : Nat}
    (differs : DiffersAt (2 * offset) first second place) :
    DiffersAt offset (halve offset combine first) (halve offset combine second) (place % offset) := by
  have inside := differs.within
  have positive : 0 < offset := by omega
  refine ⟨Nat.mod_lt _ positive, ?_, fun lane low apart => ?_⟩
  · rw [halve_apply _ _ _ (Nat.mod_lt _ positive), halve_apply _ _ _ (Nat.mod_lt _ positive)]
    by_cases front : place < offset
    · rw [Nat.mod_eq_of_lt front, differs.agrees (place + offset) (by omega) (by omega)]
      exact fun same => differs.differs (cancels.left _ _ _ same)
    · have wrapped : place % offset = place - offset := by
        rw [Nat.mod_eq_sub_mod (by omega), Nat.mod_eq_of_lt (by omega)]
      rw [wrapped, Nat.sub_add_cancel (by omega), differs.agrees (place - offset) (by omega) (by omega)]
      exact fun same => differs.differs (cancels.right _ _ _ same)
  · have front : lane ≠ place := by
      rintro rfl
      exact apart (Nat.mod_eq_of_lt low).symm
    have back : lane + offset ≠ place := by
      rintro rfl
      rw [Nat.add_mod_right, Nat.mod_eq_of_lt low] at apart
      exact apart rfl
    rw [halve_apply _ _ _ low, halve_apply _ _ _ low, differs.agrees lane (by omega) front,
      differs.agrees (lane + offset) (by omega) back]

theorem tree_congr {combine : Word → Word → Word} (levels : Nat)
    (same : ∀ lane < 2 ^ levels, first lane = second lane) :
    tree combine levels first = tree combine levels second := by
  induction levels generalizing first second with
  | zero => exact same 0 (by omega)
  | succ levels ih =>
    rw [Nat.pow_succ'] at same
    exact ih (halve_congr same)

theorem tree_differs {combine : Word → Word → Word} (cancels : Cancels combine) (levels : Nat)
    (differs : DiffersAt (2 ^ levels) first second place) :
    tree combine levels first ≠ tree combine levels second := by
  induction levels generalizing first second place with
  | zero =>
    obtain rfl : place = 0 := Nat.lt_one_iff.mp differs.within
    exact differs.differs
  | succ levels ih =>
    rw [Nat.pow_succ'] at differs
    exact ih (differs.halve cancels)

end Differences

section Chains

variable {take : Word → Item → Word} (cancels : Cancels take) {items others : Nat → Item}

include cancels in
theorem chain_differs_of_start (count : Nat) (same : ∀ index < count, items index = others index)
    {word other : Word} (differs : word ≠ other) :
    (List.range count).foldl (fun word index => take word (items index)) word ≠
      (List.range count).foldl (fun word index => take word (others index)) other := by
  induction count with
  | zero => simpa using differs
  | succ count ih =>
    simp only [List.range_succ, List.foldl_append, List.foldl_cons, List.foldl_nil]
    rw [same count (by omega)]
    exact fun agree => ih (fun index low => same index (by omega)) (cancels.left _ _ _ agree)

theorem chain_congr (count : Nat) (same : ∀ index < count, items index = others index) (word : Word) :
    (List.range count).foldl (fun word index => take word (items index)) word =
      (List.range count).foldl (fun word index => take word (others index)) word :=
  List.foldl_ext _ _ _ fun word index low => by rw [same index (List.mem_range.mp low)]

include cancels in
theorem chain_differs {count index : Nat} (low : index < count) (differs : items index ≠ others index)
    (same : ∀ other < count, other ≠ index → items other = others other) (word : Word) :
    (List.range count).foldl (fun word index => take word (items index)) word ≠
      (List.range count).foldl (fun word index => take word (others index)) word := by
  induction count with
  | zero => omega
  | succ count ih =>
    simp only [List.range_succ, List.foldl_append, List.foldl_cons, List.foldl_nil]
    by_cases last : index = count
    · subst last
      rw [chain_congr index (fun other before => same other (by omega) (by omega))]
      exact fun agree => differs (cancels.right _ _ _ agree)
    · rw [same count (by omega) (Ne.symm last)]
      exact fun agree => ih (by omega) (fun other before => same other (by omega))
        (cancels.left _ _ _ agree)

end Chains

end Pccl.Lanes
