import Mathlib

set_option autoImplicit false

namespace Pccl.Buffer

variable {A : Type}

def slice (buffer : List A) (offset count : Nat) : List A :=
  (buffer.drop offset).take count

def splice (buffer : List A) (offset : Nat) (data : List A) : List A :=
  buffer.take offset ++ data ++ buffer.drop (offset + data.length)

theorem slice_getElem? (buffer : List A) (offset count index : Nat) :
    (slice buffer offset count)[index]? =
      if index < count then buffer[offset + index]? else none := by
  simp [slice, List.getElem?_take, List.getElem?_drop]

theorem splice_getElem? (buffer : List A) (offset : Nat) (data : List A) (index : Nat)
    (inside : offset ≤ buffer.length) :
    (splice buffer offset data)[index]? =
      if index < offset then buffer[index]?
      else if index < offset + data.length then data[index - offset]? else buffer[index]? := by
  have first : (buffer.take offset).length = offset := by simp [inside]
  unfold splice
  by_cases before : index < offset
  · rw [List.append_assoc, List.getElem?_append_left (by omega)]
    simp [before]
  · rw [List.append_assoc, List.getElem?_append_right (by omega), first]
    by_cases within : index < offset + data.length
    · rw [List.getElem?_append_left (by omega)]
      simp [before, within]
    · rw [List.getElem?_append_right (by omega), List.getElem?_drop]
      have position : offset + data.length + (index - offset - data.length) = index := by omega
      simp [before, within, position]

@[simp] theorem length_slice (buffer : List A) (offset count : Nat) :
    (slice buffer offset count).length = min count (buffer.length - offset) := by
  simp [slice]

theorem length_slice_of_le (buffer : List A) (offset count : Nat)
    (bound : offset + count ≤ buffer.length) : (slice buffer offset count).length = count := by
  rw [length_slice]
  omega

theorem length_splice (buffer : List A) (offset : Nat) (data : List A)
    (bound : offset + data.length ≤ buffer.length) :
    (splice buffer offset data).length = buffer.length := by
  simp [splice]
  omega

@[simp] theorem slice_zero (buffer : List A) (offset : Nat) : slice buffer offset 0 = [] := by
  simp [slice]

theorem slice_slice (buffer : List A) (offset count inner size : Nat)
    (bound : inner + size ≤ count) :
    slice (slice buffer offset count) inner size = slice buffer (offset + inner) size := by
  apply List.ext_getElem?
  intro index
  rw [slice_getElem?, slice_getElem?, slice_getElem?, Nat.add_assoc]
  split_ifs <;> first | rfl | omega

theorem slice_splice_same (buffer : List A) (offset : Nat) (data : List A)
    (bound : offset + data.length ≤ buffer.length) :
    slice (splice buffer offset data) offset data.length = data := by
  apply List.ext_getElem?
  intro index
  rw [slice_getElem?, splice_getElem? _ _ _ _ (by omega)]
  split_ifs with within
  · omega
  · simp
  · omega
  · exact (List.getElem?_eq_none (by omega)).symm

theorem slice_splice_outside (buffer : List A) (offset count position : Nat) (data : List A)
    (bound : position + data.length ≤ buffer.length)
    (outside : offset + count ≤ position ∨ position + data.length ≤ offset) :
    slice (splice buffer position data) offset count = slice buffer offset count := by
  apply List.ext_getElem?
  intro index
  rw [slice_getElem?, slice_getElem?, splice_getElem? _ _ _ _ (by omega)]
  split_ifs <;> first | rfl | omega

theorem splice_slice (buffer : List A) (offset count : Nat)
    (bound : offset + count ≤ buffer.length) :
    splice buffer offset (slice buffer offset count) = buffer := by
  have length := length_slice_of_le buffer offset count bound
  apply List.ext_getElem?
  intro index
  rw [splice_getElem? _ _ _ _ (by omega), slice_getElem?, length]
  split_ifs with before within
  · rfl
  · rw [show offset + (index - offset) = index by omega]
  · omega
  · rfl

theorem splice_splice_inside (buffer : List A) (offset inner : Nat) (outer data : List A)
    (bound : offset + outer.length ≤ buffer.length) (inside : inner + data.length ≤ outer.length) :
    splice (splice buffer offset outer) (offset + inner) data =
      splice buffer offset (splice outer inner data) := by
  have length := length_splice buffer offset outer bound
  have same := length_splice outer inner data inside
  apply List.ext_getElem?
  intro index
  rw [splice_getElem? _ _ _ _ (by omega), splice_getElem? _ _ _ _ (by omega),
    splice_getElem? _ _ _ _ (by omega), splice_getElem? _ _ _ _ (by omega), same]
  rw [show index - (offset + inner) = index - offset - inner by omega]
  split_ifs <;> first | rfl | omega

def mix (count : Nat) (next old : List A) : List A :=
  next.take count ++ old.drop count

@[simp] theorem mix_zero (next old : List A) : mix 0 next old = old := by
  simp [mix]

theorem mix_all (next old : List A) (same : next.length = old.length) :
    mix next.length next old = next := by
  simp [mix, same]

theorem mix_getElem? (count : Nat) (next old : List A) (index : Nat)
    (bound : count ≤ next.length) :
    (mix count next old)[index]? = if index < count then next[index]? else old[index]? := by
  have first : (next.take count).length = count := by simp [bound]
  unfold mix
  by_cases before : index < count
  · rw [List.getElem?_append_left (by omega)]
    simp [before]
  · rw [List.getElem?_append_right (by omega), first, List.getElem?_drop]
    have position : count + (index - count) = index := by omega
    simp [before, position]

theorem length_mix (count : Nat) (next old : List A) (same : next.length = old.length)
    (bound : count ≤ next.length) : (mix count next old).length = old.length := by
  simp [mix]
  omega

theorem splice_mix (count size : Nat) (next old : List A) (same : next.length = old.length)
    (bound : count + size ≤ next.length) :
    splice (mix count next old) count (slice next count size) = mix (count + size) next old := by
  have length := length_mix count next old same (by omega)
  have window := length_slice_of_le next count size bound
  apply List.ext_getElem?
  intro index
  rw [splice_getElem? _ _ _ _ (by omega), window, mix_getElem? _ _ _ _ (by omega),
    mix_getElem? _ _ _ _ (by omega), slice_getElem?]
  by_cases before : index < count
  · simp [before, show index < count + size by omega]
  · by_cases within : index < count + size
    · simp [before, within, show index - count < size by omega,
        show count + (index - count) = index by omega]
    · simp [before, within]

theorem slice_mix_after (count offset size : Nat) (next old : List A)
    (bound : count ≤ next.length) (after : count ≤ offset) :
    slice (mix count next old) offset size = slice old offset size := by
  apply List.ext_getElem?
  intro index
  rw [slice_getElem?, slice_getElem?, mix_getElem? _ _ _ _ bound]
  simp [show ¬ offset + index < count by omega]

def cut (size : Nat) : List A → List (List A)
  | [] => []
  | first :: rest => (first :: rest.take (size - 1)) :: cut size (rest.drop (size - 1))
termination_by data => data.length
decreasing_by simp

@[simp] theorem cut_nil (size : Nat) : cut size ([] : List A) = [] := by
  rw [cut]

theorem cut_of_ne_nil (size : Nat) (data : List A) (positive : 0 < size) (present : data ≠ []) :
    cut size data = data.take size :: cut size (data.drop size) := by
  obtain ⟨size, rfl⟩ := Nat.exists_eq_succ_of_ne_zero (Nat.pos_iff_ne_zero.mp positive)
  cases data with
  | nil => exact absurd rfl present
  | cons first rest => rw [cut]; simp

theorem cut_cases (size : Nat) (data : List A) (present : data ≠ []) :
    ∃ length, 0 < length ∧ length ≤ data.length ∧ length ≤ max 1 size ∧
      cut size data = data.take length :: cut size (data.drop length) := by
  cases data with
  | nil => exact absurd rfl present
  | cons first rest =>
    by_cases short : size - 1 ≤ rest.length
    · exact ⟨size - 1 + 1, by omega, by simpa using short, by omega, by rw [cut]; simp⟩
    · refine ⟨rest.length + 1, by omega, by simp, by omega, ?_⟩
      rw [cut, List.take_of_length_le (show rest.length ≤ size - 1 by omega),
        List.drop_of_length_le (show rest.length ≤ size - 1 by omega)]
      simp

end Pccl.Buffer
