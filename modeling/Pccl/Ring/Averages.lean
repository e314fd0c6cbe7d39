import Pccl.Ring.AllReduce

set_option autoImplicit false

namespace Pccl.Ring

open Buffer

namespace DataType

variable (dataType : DataType)

def value (element : BitVec (8 * dataType.size)) : Int :=
  if dataType.isSigned then element.toInt else element.toNat

/-- The numbers that a conversion to the integer type leaves as they are. -/
def Represents (number : Nat) : Prop :=
  number < if dataType.isSigned then 2 ^ (8 * dataType.size - 1) else 2 ^ (8 * dataType.size)

instance (number : Nat) : Decidable (dataType.Represents number) :=
  inferInstanceAs (Decidable (number < _))

def quotient (element divisor : BitVec (8 * dataType.size)) : BitVec (8 * dataType.size) :=
  if dataType.isSigned then element.sdiv divisor else element.udiv divisor

variable {dataType}

theorem size_of_isInteger (integer : dataType.isInteger = true) : 0 < dataType.size := by
  cases dataType <;> first | decide | cases integer

theorem value_ofNat {number : Nat} (positive : 0 < dataType.size) (fits : dataType.Represents number) :
    dataType.value (BitVec.ofNat _ number) = number := by
  unfold Represents at fits
  unfold value
  split_ifs at fits ⊢
  · have whole : 2 ^ (8 * dataType.size) = 2 * 2 ^ (8 * dataType.size - 1) := by
      rw [← Nat.pow_succ', Nat.succ_eq_add_one, Nat.sub_add_cancel (by omega)]
    have same : (BitVec.ofNat (8 * dataType.size) number).toNat = number :=
      (BitVec.toNat_ofNat _ _).trans (Nat.mod_eq_of_lt (by omega))
    rw [BitVec.toInt_eq_toNat_of_lt (by omega), same]
  · rw [BitVec.toNat_ofNat, Nat.mod_eq_of_lt fits]

theorem value_ofNat_lt {number : Nat} (beyond : ¬ dataType.Represents number) :
    dataType.value (BitVec.ofNat _ number) < number := by
  unfold Represents at beyond
  unfold value
  split_ifs at beyond ⊢
  · have small := (BitVec.ofNat (8 * dataType.size) number).toInt_lt
    push_cast [← Nat.cast_lt (α := Int)] at beyond
    omega
  · have small := (BitVec.ofNat (8 * dataType.size) number).isLt
    omega

theorem value_quotient_self {element : BitVec (8 * dataType.size)} (nonzero : element ≠ 0)
    (positive : 0 < dataType.size) : dataType.value (dataType.quotient element element) = 1 := by
  unfold value quotient
  split_ifs
  · rw [BitVec.sdiv_self, if_neg (by simpa using nonzero), BitVec.toInt_one (by omega)]
  · change ((element / element).toNat : Int) = 1
    rw [BitVec.udiv_self, if_neg (by simpa using nonzero), BitVec.toNat_one (by omega)]
    rfl

theorem divides_of_positive (element : BitVec (8 * dataType.size))
    {divisor : BitVec (8 * dataType.size)} (positive : 0 < dataType.value divisor) :
    divisionTraps dataType element divisor = false := by
  have nonzero : divisor ≠ 0 := by
    rintro rfl
    simp [value] at positive
  have regular (signed : dataType.isSigned = true) : divisor ≠ BitVec.allOnes _ := by
    rintro rfl
    rw [value, if_pos signed, BitVec.toInt_allOnes] at positive
    split_ifs at positive <;> omega
  cases signed : dataType.isSigned <;> simp_all [divisionTraps]

theorem value_quotient {element divisor : BitVec (8 * dataType.size)}
    (positive : 0 < dataType.value divisor) :
    dataType.value (dataType.quotient element divisor) =
      (dataType.value element).tdiv (dataType.value divisor) := by
  unfold value quotient at *
  split_ifs at positive ⊢
  · refine BitVec.toInt_sdiv_of_ne_or_ne _ _ (.inr fun minus => ?_)
    rw [minus, BitVec.neg_one_eq_allOnes, BitVec.toInt_allOnes] at positive
    split_ifs at positive <;> omega
  · exact_mod_cast congrArg Int.ofNat (BitVec.toNat_udiv)

end DataType

theorem tdiv_lt_one {number divisor : Int} (less : number < divisor) (positive : 0 < divisor) :
    number.tdiv divisor < 1 := by
  rcases le_or_gt 0 number with nonneg | negative
  · rw [Int.tdiv_eq_zero_of_lt nonneg less]
    exact Int.one_pos
  · have opposite := Int.neg_tdiv (a := number) (b := divisor)
    have nonneg := Int.tdiv_nonneg (Int.neg_nonneg_of_nonpos negative.le) positive.le
    omega

variable {dataType quantizedType : DataType} (kernel : Kernel dataType quantizedType)

theorem performReduceFinalization_avg (integer : dataType.isInteger = true) {worldSize count : Nat}
    {dst : List Byte} (length : dst.length = count * dataType.size) :
    performReduceFinalization kernel worldSize .avg dst =
      if ∃ index < count, divisionTraps dataType (elem (8 * dataType.size) dst index)
          (BitVec.ofNat _ worldSize) then none
      else some (store dataType.size count fun index =>
        dataType.quotient (elem (8 * dataType.size) dst index) (BitVec.ofNat _ worldSize)) := by
  have elements : dst.length / dataType.size = count := by
    rw [length, Nat.mul_div_cancel _ (DataType.size_of_isInteger integer)]
  unfold performReduceFinalization
  simp only [elements, integer, ne_eq, not_true_eq_false, if_false, if_true, List.any_eq_true,
    List.mem_range]
  rfl

theorem averages_divide_iff (integer : dataType.isInteger = true) (worldSize : Nat)
    (positive : 1 ≤ worldSize) :
    (∀ count dst, dst.length = count * dataType.size → ∃ result,
      performReduceFinalization kernel worldSize .avg dst = some result ∧
      result.length = dst.length ∧ ∀ index < count,
        dataType.value (elem (8 * dataType.size) result index) =
          (dataType.value (elem (8 * dataType.size) dst index)).tdiv worldSize) ↔
      dataType.Represents worldSize := by
  have bytes := DataType.size_of_isInteger integer
  constructor
  · intro divides
    by_contra beyond
    -- The divisor itself is divided to one, although it is less than the world size.
    let divisor := BitVec.ofNat (8 * dataType.size) worldSize
    let single := store dataType.size 1 fun _ => divisor
    have length : single.length = 1 * dataType.size := length_store _ _ _
    obtain ⟨result, returned, _, quotients⟩ := divides 1 single length
    rw [performReduceFinalization_avg kernel integer length] at returned
    split_ifs at returned with traps
    have nonzero : divisor ≠ 0 := fun zero => traps ⟨0, Nat.one_pos, by
      simp [divisionTraps, show BitVec.ofNat _ worldSize = 0 from zero]⟩
    obtain rfl := Option.some.inj returned
    have less := tdiv_lt_one (DataType.value_ofNat_lt beyond) (Int.natCast_pos.mpr positive)
    have wrong := quotients 0 Nat.one_pos
    rw [elem_store _ _ _ _ Nat.one_pos, elem_store _ _ _ _ Nat.one_pos,
      DataType.value_quotient_self nonzero bytes] at wrong
    exact less.ne wrong.symm
  · intro fits count dst length
    have same := DataType.value_ofNat bytes fits
    refine ⟨_, (performReduceFinalization_avg kernel integer length).trans (if_neg ?_),
      ?_, fun index inside => ?_⟩
    · rintro ⟨index, _, traps⟩
      rw [DataType.divides_of_positive _ (by omega)] at traps
      exact Bool.false_ne_true traps
    · rw [length_store, length]
    · rw [elem_store _ _ _ _ inside, DataType.value_quotient (by omega), same]

theorem averages_divide_pair :
    DataType.int8.Represents 2 ∧ ∃ result,
      performReduceFinalization (constantKernel .int8 .int8) 2 .avg [0x85] = some result ∧
      DataType.int8.value (elem 8 result 0) = (DataType.int8.value (elem 8 [0x85] 0)).tdiv 2 := by
  have fits : DataType.int8.Represents 2 := by decide
  obtain ⟨result, returned, _, quotients⟩ :=
    (averages_divide_iff (constantKernel .int8 .int8) rfl 2 (by decide)).mpr fits 1 [0x85] rfl
  exact ⟨fits, result, returned, quotients 0 Nat.one_pos⟩

theorem int8_average_wrong :
    performReduceFinalization (constantKernel .int8 .int8) 128 .avg [0x80] = some [1] ∧
      (DataType.int8.value 0x80).tdiv 128 = -1 ∧
      performReduceFinalization (constantKernel .int8 .int8) 256 .avg [0x80] = none := by
  decide

end Pccl.Ring
