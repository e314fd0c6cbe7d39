import Pccl.Shared.Buffer

set_option autoImplicit false

/-!
Bits are numbered from the least significant bit of the first byte, so that an element of a
whole number of bytes is little-endian and elements narrower than a byte are packed into one.
-/

namespace Pccl.Buffer

abbrev Byte := BitVec 8

def bit (buffer : List Byte) (index : Nat) : Bool :=
  (buffer.getD (index / 8) 0).getLsbD (index % 8)

def elem (bits : Nat) (buffer : List Byte) (index : Nat) : BitVec bits :=
  BitVec.ofFnLE fun position => bit buffer (index * bits + position)

def store (bytes count : Nat) (value : Nat → BitVec (8 * bytes)) : List Byte :=
  (List.range (count * bytes)).map fun index =>
    (value (index / bytes)).extractLsb' (8 * (index % bytes)) 8

theorem bit_slice (buffer : List Byte) (offset count index : Nat) (inside : index < 8 * count) :
    bit (slice buffer offset count) index = bit buffer (8 * offset + index) := by
  have byte : (8 * offset + index) / 8 = offset + index / 8 := by omega
  have position : (8 * offset + index) % 8 = index % 8 := by omega
  have within : index / 8 < count := by omega
  simp [bit, slice_getElem?, byte, position, within]

theorem elem_slice (bits : Nat) (buffer : List Byte) (offset count first index : Nat)
    (aligned : 8 * offset = first * bits) (inside : (index + 1) * bits ≤ 8 * count) :
    elem bits (slice buffer offset count) index = elem bits buffer (first + index) := by
  unfold elem
  congr 1
  funext position
  have bound := position.isLt
  have next : (index + 1) * bits = index * bits + bits := by ring
  rw [bit_slice _ _ _ _ (by omega), aligned]
  congr 1
  ring

theorem elem_setWidth (bits width : Nat) (buffer : List Byte) (index : Nat) (same : bits = width) :
    (elem bits buffer index).setWidth width = elem width buffer index := by
  subst same
  exact BitVec.setWidth_eq _

theorem length_store (bytes count : Nat) (value : Nat → BitVec (8 * bytes)) :
    (store bytes count value).length = count * bytes := by
  simp [store]

theorem store_getElem? (bytes count : Nat) (value : Nat → BitVec (8 * bytes)) (index : Nat)
    (inside : index < count * bytes) :
    (store bytes count value)[index]? =
      some ((value (index / bytes)).extractLsb' (8 * (index % bytes)) 8) := by
  simp [store, inside]

theorem store_congr (bytes count : Nat) (left right : Nat → BitVec (8 * bytes))
    (same : ∀ index, index < count → left index = right index) :
    store bytes count left = store bytes count right := by
  unfold store
  apply List.map_congr_left
  intro index member
  have bound : index < count * bytes := by simpa using member
  rw [same _ (Nat.div_lt_of_lt_mul (by rwa [Nat.mul_comm]))]

theorem slice_store (bytes count : Nat) (value : Nat → BitVec (8 * bytes)) (first size : Nat)
    (bound : first + size ≤ count) :
    slice (store bytes count value) (first * bytes) (size * bytes) =
      store bytes size fun index => value (first + index) := by
  have room : first * bytes + size * bytes ≤ count * bytes := by
    rw [← Nat.add_mul]
    exact Nat.mul_le_mul_right _ bound
  apply List.ext_getElem?
  intro index
  rw [slice_getElem?]
  by_cases inside : index < size * bytes
  · have positive : 0 < bytes := by
      rcases Nat.eq_zero_or_pos bytes with zero | positive
      · simp [zero] at inside
      · exact positive
    have quotient : (first * bytes + index) / bytes = first + index / bytes := by
      rw [Nat.add_comm, Nat.add_mul_div_right _ _ positive, Nat.add_comm]
    have remainder : (first * bytes + index) % bytes = index % bytes := by
      rw [Nat.add_comm, Nat.add_mul_mod_self_right]
    rw [if_pos inside, store_getElem? _ _ _ _ (by omega), store_getElem? _ _ _ _ inside,
      quotient, remainder]
  · rw [if_neg inside]
    exact (List.getElem?_eq_none (by rw [length_store]; omega)).symm

theorem elem_store (bytes count : Nat) (value : Nat → BitVec (8 * bytes)) (index : Nat)
    (bound : index < count) : elem (8 * bytes) (store bytes count value) index = value index := by
  apply BitVec.eq_of_getLsbD_eq
  intro position inside
  have positive : 0 < bytes := by omega
  have byte : (index * (8 * bytes) + position) / 8 = position / 8 + index * bytes := by
    have scaled : index * (8 * bytes) = 8 * (index * bytes) := by ring
    omega
  have low : (index * (8 * bytes) + position) % 8 = position % 8 := by
    have scaled : index * (8 * bytes) = 8 * (index * bytes) := by ring
    omega
  have room : (index + 1) * bytes ≤ count * bytes := Nat.mul_le_mul_right _ bound
  have next : (index + 1) * bytes = index * bytes + bytes := by ring
  have small : position / 8 < bytes := by omega
  have quotient : (position / 8 + index * bytes) / bytes = index := by
    rw [Nat.add_mul_div_right _ _ positive, Nat.div_eq_of_lt small, Nat.zero_add]
  have remainder : (position / 8 + index * bytes) % bytes = position / 8 := by
    rw [Nat.add_mul_mod_self_right, Nat.mod_eq_of_lt small]
  rw [elem, BitVec.getLsbD_ofFnLE, dif_pos inside, bit, byte, low, List.getD_eq_getElem?_getD,
    store_getElem? _ _ _ _ (by omega), quotient, remainder, Option.getD_some,
    BitVec.getLsbD_extractLsb']
  have split : 8 * (position / 8) + position % 8 = position := by omega
  simp [split, Nat.mod_lt]

theorem store_elem (bytes count : Nat) (buffer : List Byte) (length : buffer.length = count * bytes) :
    store bytes count (elem (8 * bytes) buffer) = buffer := by
  apply List.ext_getElem?
  intro index
  by_cases inside : index < count * bytes
  · rw [store_getElem? _ _ _ _ inside, List.getElem?_eq_getElem (by omega)]
    congr 1
    apply BitVec.eq_of_getLsbD_eq
    intro position small
    have positive : 0 < bytes := by
      rcases Nat.eq_zero_or_pos bytes with zero | positive
      · simp [zero] at inside
      · exact positive
    have lane : index % bytes < bytes := Nat.mod_lt _ positive
    have split := Nat.div_add_mod index bytes
    have place : index / bytes * (8 * bytes) + (8 * (index % bytes) + position) =
        8 * index + position := by
      have scaled : index / bytes * (8 * bytes) = 8 * (bytes * (index / bytes)) := by ring
      omega
    have byte : (8 * index + position) / 8 = index := by omega
    have low : (8 * index + position) % 8 = position := by omega
    rw [BitVec.getLsbD_extractLsb', elem, BitVec.getLsbD_ofFnLE, dif_pos (by omega)]
    simp only [small, decide_true, Bool.true_and]
    rw [place, bit, byte, low, List.getD_eq_getElem _ _ (by omega)]
  · rw [List.getElem?_eq_none (by rw [length_store]; omega), List.getElem?_eq_none (by omega)]

end Pccl.Buffer
