import Mathlib

set_option autoImplicit false

namespace Pccl

abbrev Table (Key Value : Type) := AList fun _ : Key => Value

namespace Table

variable {Key Value : Type}

def size (table : Table Key Value) : Nat := table.entries.length

def values (table : Table Key Value) : List Value := table.entries.map Sigma.snd

def pairs (table : Table Key Value) : List (Key × Value) :=
  table.entries.map fun entry => (entry.1, entry.2)

def mapKeyed (change : Key → Value → Value) (table : Table Key Value) : Table Key Value where
  -- The order of the entries stays as it is.
  entries := table.entries.map fun entry => ⟨entry.1, change entry.1 entry.2⟩
  nodupKeys := by
    have keys : (table.entries.map fun entry =>
        (⟨entry.1, change entry.1 entry.2⟩ : Sigma fun _ : Key => Value)).keys = table.keys := by
      simp [List.keys, AList.keys, Function.comp_def]
    rw [List.NodupKeys, keys]
    exact table.keys_nodup

def mapValues (change : Value → Value) (table : Table Key Value) : Table Key Value :=
  table.mapKeyed fun _ => change

def updateAll (change : Value → Option Value) (table : Table Key Value) :
    Option (Table Key Value) :=
  -- A loop over the values that gives up at the first one it cannot change.
  if table.values.all fun value => (change value).isSome then
    some (table.mapValues fun value => (change value).getD value)
  else
    none

@[simp] theorem size_mapKeyed (change : Key → Value → Value) (table : Table Key Value) :
    (table.mapKeyed change).size = table.size := by
  simp [size, mapKeyed]

@[simp] theorem mem_mapKeyed (change : Key → Value → Value) (table : Table Key Value) (key : Key) :
    key ∈ table.mapKeyed change ↔ key ∈ table := by
  simp [AList.mem_keys, AList.keys, mapKeyed, List.keys, Function.comp_def]

@[simp] theorem mem_mapValues (change : Value → Value) (table : Table Key Value) (key : Key) :
    key ∈ table.mapValues change ↔ key ∈ table :=
  mem_mapKeyed _ table key

theorem pairs_nodup (table : Table Key Value) : (table.pairs.map Prod.fst).Nodup := by
  have keys : table.pairs.map Prod.fst = table.keys := by
    simp [pairs, AList.keys, List.keys, Function.comp_def]
  exact keys ▸ table.keys_nodup

variable [DecidableEq Key]

def adjust (key : Key) (change : Value → Value) (table : Table Key Value) : Table Key Value :=
  table.mapKeyed fun other value => if other = key then change value else value

theorem lookup_iff_mem {table : Table Key Value} {key : Key} {value : Value} :
    table.lookup key = some value ↔ (⟨key, value⟩ : Sigma fun _ : Key => Value) ∈ table.entries :=
  AList.mem_lookup_iff

@[simp] theorem lookup_mapKeyed (change : Key → Value → Value) (table : Table Key Value)
    (key : Key) : (table.mapKeyed change).lookup key = (table.lookup key).map (change key) := by
  cases found : table.lookup key with
  | none =>
    rw [AList.lookup_eq_none] at found
    simp [AList.lookup_eq_none, found]
  | some value =>
    rw [lookup_iff_mem] at found
    rw [Option.map_some, lookup_iff_mem]
    exact List.mem_map.mpr ⟨_, found, rfl⟩

@[simp] theorem lookup_mapValues (change : Value → Value) (table : Table Key Value) (key : Key) :
    (table.mapValues change).lookup key = (table.lookup key).map change :=
  lookup_mapKeyed _ table key

theorem lookup_adjust (key other : Key) (change : Value → Value) (table : Table Key Value) :
    (table.adjust key change).lookup other =
      if other = key then (table.lookup other).map change else table.lookup other := by
  rw [adjust, lookup_mapKeyed]
  split <;> simp

theorem mapKeyed_congr {first second : Key → Value → Value} {table : Table Key Value}
    (same : ∀ key value, table.lookup key = some value → first key value = second key value) :
    table.mapKeyed first = table.mapKeyed second := by
  apply AList.ext
  refine List.map_congr_left fun entry present => ?_
  rw [same entry.1 entry.2 (lookup_iff_mem.mpr present)]

omit [DecidableEq Key] in
theorem mapKeyed_mapKeyed (first second : Key → Value → Value) (table : Table Key Value) :
    (table.mapKeyed first).mapKeyed second =
      table.mapKeyed fun key value => second key (first key value) := by
  apply AList.ext
  simp [mapKeyed]

omit [DecidableEq Key] in
theorem mapKeyed_id (table : Table Key Value) : table.mapKeyed (fun _ value => value) = table := by
  apply AList.ext
  simp [mapKeyed]

theorem adjust_of_fixed (key : Key) (change : Value → Value) (table : Table Key Value)
    (fixed : ∀ value, table.lookup key = some value → change value = value) :
    table.adjust key change = table := by
  refine (mapKeyed_congr fun other value found => ?_).trans (mapKeyed_id table)
  split
  · next same =>
    subst same
    exact fixed value found
  · rfl

theorem mem_values_iff {table : Table Key Value} {value : Value} :
    value ∈ table.values ↔ ∃ key, table.lookup key = some value := by
  simp only [values, List.mem_map, lookup_iff_mem]
  constructor
  · rintro ⟨⟨key, value⟩, present, rfl⟩
    exact ⟨key, present⟩
  · rintro ⟨key, present⟩
    exact ⟨_, present, rfl⟩

theorem key_eq_of_size_one {table : Table Key Value} (one : table.size = 1) {first second : Key}
    {value other : Value} (here : table.lookup first = some value)
    (there : table.lookup second = some other) : first = second := by
  obtain ⟨entry, single⟩ := List.length_eq_one_iff.mp one
  rw [lookup_iff_mem, single, List.mem_singleton] at here there
  exact congrArg Sigma.fst (here.trans there.symm)

theorem mem_pairs_iff {table : Table Key Value} {key : Key} {value : Value} :
    (key, value) ∈ table.pairs ↔ table.lookup key = some value := by
  simp only [pairs, List.mem_map, lookup_iff_mem]
  constructor
  · rintro ⟨⟨key, value⟩, present, same⟩
    cases same
    exact present
  · intro present
    exact ⟨_, present, rfl⟩

theorem updateAll_eq_some {change : Value → Option Value} {table next : Table Key Value} :
    table.updateAll change = some next ↔
      (∀ key value, table.lookup key = some value → (change value).isSome) ∧
        next = table.mapValues fun value => (change value).getD value := by
  unfold updateAll
  split <;> rename_i all <;> rw [List.all_eq_true] at all
  · simp only [Option.some.injEq, eq_comm (a := next)]
    refine ⟨fun same => ⟨?_, same⟩, fun both => both.2⟩
    exact fun key value found => all value (mem_values_iff.mpr ⟨key, found⟩)
  · refine ⟨fun absurd => by simp at absurd, fun both => absurd ?_ all⟩
    intro value present
    obtain ⟨key, found⟩ := mem_values_iff.mp present
    exact both.1 key value found

theorem size_insert (table : Table Key Value) (key : Key) (value : Value) (fresh : key ∉ table) :
    size (table.insert key value) = table.size + 1 := by
  rw [size, AList.entries_insert_of_notMem fresh, List.length_cons, size]

theorem size_erase (table : Table Key Value) (key : Key) (present : key ∈ table) :
    size (table.erase key) + 1 = table.size := by
  have keys : (table.erase key).keys.length + 1 = table.keys.length := by
    rw [AList.keys_erase, List.length_erase_of_mem present]
    exact Nat.succ_pred_eq_of_pos (List.length_pos_of_mem present)
  simpa [size, AList.keys, List.keys] using keys

theorem lookup_insert_iff (table : Table Key Value) (key other : Key) (value : Value) :
    (table.insert key value).lookup other =
      if other = key then some value else table.lookup other := by
  split
  · next same =>
    subst same
    exact AList.lookup_insert table
  · next different => exact AList.lookup_insert_ne different

theorem lookup_erase_iff (table : Table Key Value) (key other : Key) :
    (table.erase key).lookup other = if other = key then none else table.lookup other := by
  split
  · next same =>
    subst same
    exact AList.lookup_erase other table
  · next different => exact AList.lookup_erase_ne different

theorem lookup_foldl_erase (keys : List Key) (table : Table Key Value) (key : Key) :
    (keys.foldl (fun table key => table.erase key) table).lookup key =
      if key ∈ keys then none else table.lookup key := by
  induction keys generalizing table with
  | nil => simp
  | cons first rest ih =>
    rw [List.foldl_cons, ih, lookup_erase_iff]
    by_cases here : key = first <;> simp [here]

theorem mem_foldl_erase (keys : List Key) (table : Table Key Value) (key : Key) :
    key ∈ keys.foldl (fun table key => table.erase key) table ↔ key ∈ table ∧ key ∉ keys := by
  induction keys generalizing table with
  | nil => simp
  | cons first rest ih =>
    rw [List.foldl_cons, ih, AList.mem_erase, List.mem_cons]
    tauto

end Table

end Pccl
