import Pccl.Ring.Types

set_option autoImplicit false

/-!
Integer arithmetic is that of the fixed-width types. The quantizer and floating point arithmetic are
parameters of the development: nothing is assumed about them except that they are functions, that
the quantizer fills the buffer it is given and that its metadata comes from one of the factories.

A `none` stands for the process or the call ending: `LOG(FATAL)`, `LOG(BUG)`, an exception or an
integer division that traps.
-/

namespace Pccl.Ring

open Buffer

structure Kernel (dataType quantizedType : DataType) where
  quantize : (size : Nat) → List Byte → List Byte × DeQuantizationMetaData
  quantize_length : ∀ size chunk, (quantize size chunk).1.length = size
  quantize_made : ∀ size chunk, (quantize size chunk).2.Made
  dequantize : BitVec quantizedType.sizeBits → DeQuantizationMetaData → BitVec (8 * dataType.size)
  floatOp : ReduceOp → BitVec (8 * dataType.size) → BitVec (8 * dataType.size) →
    BitVec (8 * dataType.size)
  floatDivide : BitVec (8 * dataType.size) → Nat → BitVec (8 * dataType.size)

def DataType.hasPiquantType : DataType → Bool
  | .uint2 | .uint4 | .int8 | .uint8 | .float | .bfloat16 => true
  | _ => false

def reduceFunctionExists (dstType srcType : DataType) : QuantizationAlgorithm → Bool
  | .none =>
    (dstType.isSigned && srcType.isSigned && srcType.sizeBits ≤ dstType.sizeBits) ||
      (dstType.isUnsigned && srcType.isUnsigned && srcType.sizeBits ≤ dstType.sizeBits) ||
      (srcType = .float && (dstType = .float || dstType = .double)) ||
      (srcType = .double && dstType = .double)
  | .minMax => srcType.isUnsigned && (dstType = .float || dstType = .double)
  | .zeroPointScale => false

def reductionSupported (dstType srcType : DataType) (algorithm : QuantizationAlgorithm) :
    ReduceOp → Bool
  | .set =>
    if algorithm = .zeroPointScale then
      (srcType ≠ dstType && srcType.hasPiquantType && dstType.hasPiquantType) ||
        reduceFunctionExists dstType srcType .none
    else
      reduceFunctionExists dstType srcType algorithm
  | .sum | .avg =>
    if algorithm = .zeroPointScale then
      (srcType ≠ dstType && srcType.hasPiquantType && dstType.hasPiquantType) ||
        (8 ≤ srcType.sizeBits && reduceFunctionExists dstType srcType .none)
    else
      8 ≤ srcType.sizeBits && reduceFunctionExists dstType srcType algorithm
  | .prod | .max | .min =>
    8 ≤ srcType.sizeBits && reduceFunctionExists dstType srcType algorithm

def integerOp {width : Nat} (signed : Bool) (op : ReduceOp) (left right : BitVec width) :
    BitVec width :=
  -- `std::max` and `std::min` keep their first argument when the two are equal.
  let less (left right : BitVec width) := if signed then left.slt right else left.ult right
  match op with
  | .set => right
  | .sum | .avg => left + right
  | .prod => left * right
  | .max => if less left right then right else left
  | .min => if less right left then right else left

section Reduction

variable {dataType quantizedType : DataType} (kernel : Kernel dataType quantizedType)

def operand (metaData : DeQuantizationMetaData) (value : BitVec quantizedType.sizeBits) :
    BitVec (8 * dataType.size) :=
  if dataType = quantizedType then value.setWidth _ else kernel.dequantize value metaData

def combine (op : ReduceOp) (left right : BitVec (8 * dataType.size)) :
    BitVec (8 * dataType.size) :=
  if op = .set then right
  else if dataType.isInteger then integerOp dataType.isSigned op left right
  else kernel.floatOp op left right

def reduceElements (op : ReduceOp) (metaData : DeQuantizationMetaData) (dst src : List Byte) :
    List Byte :=
  store dataType.size (dst.length / dataType.size) fun index =>
    combine kernel op (elem (8 * dataType.size) dst index)
      (operand kernel metaData (elem quantizedType.sizeBits src index))

def performReduction (algorithm : QuantizationAlgorithm) (op : ReduceOp)
    (metaData : DeQuantizationMetaData) (dst src : List Byte) : Option (List Byte) :=
  if reductionSupported dataType quantizedType algorithm op then
    some (reduceElements kernel op metaData dst src)
  else
    none

def quantizationSupported (dataType quantizedType : DataType) : QuantizationAlgorithm → Bool
  | .none => false
  | .minMax =>
    quantizedType.hasPiquantType && dataType.hasPiquantType &&
      (quantizedType.isUnsigned && (dataType = .float || dataType = .double))
  | .zeroPointScale =>
    quantizedType.hasPiquantType && (dataType = .float || dataType = .bfloat16)

def performQuantization (algorithm : QuantizationAlgorithm) (size : Nat) (chunk : List Byte) :
    Option (List Byte × DeQuantizationMetaData) :=
  if quantizationSupported dataType quantizedType algorithm then
    some (kernel.quantize size chunk)
  else
    none

def divisionTraps (dataType : DataType) (value divisor : BitVec (8 * dataType.size)) : Bool :=
  -- The types that are narrower than `int` are promoted to it, where the quotient by -1 exists.
  divisor = 0 ||
    (dataType.isSigned && 4 ≤ dataType.size && value = BitVec.intMin _ && divisor = BitVec.allOnes _)

-- Neither 16-bit float type has a case in the source's switch: their sum is left undivided.
def performReduceFinalization (worldSize : Nat) (op : ReduceOp) (dst : List Byte) :
    Option (List Byte) :=
  let count := dst.length / dataType.size
  let divisor := BitVec.ofNat (8 * dataType.size) worldSize
  if op ≠ .avg then some dst
  else if dataType.isInteger then
    if (List.range count).any fun index =>
        divisionTraps dataType (elem (8 * dataType.size) dst index) divisor then none
    else
      some (store dataType.size count fun index =>
        let value := elem (8 * dataType.size) dst index
        if dataType.isSigned then value.sdiv divisor else value.udiv divisor)
  else if dataType = .float ∨ dataType = .double then
    some (store dataType.size count fun index =>
      kernel.floatDivide (elem (8 * dataType.size) dst index) worldSize)
  else
    some dst

theorem length_reduceElements (op : ReduceOp) (metaData : DeQuantizationMetaData)
    (dst src : List Byte) (count : Nat) (length : dst.length = count * dataType.size) :
    (reduceElements kernel op metaData dst src).length = dst.length := by
  rw [reduceElements, length_store, length]
  rcases Nat.eq_zero_or_pos dataType.size with zero | positive
  · simp [zero]
  · rw [Nat.mul_div_cancel _ positive]

theorem reduceElements_slice (op : ReduceOp) (metaData : DeQuantizationMetaData)
    (dst src : List Byte) (count first size srcOffset srcSize : Nat)
    (length : dst.length = count * dataType.size) (bound : first + size ≤ count)
    (aligned : 8 * srcOffset = first * quantizedType.sizeBits)
    (whole : 8 * srcSize = size * quantizedType.sizeBits) (positive : 0 < dataType.size) :
    reduceElements kernel op metaData (slice dst (first * dataType.size) (size * dataType.size))
        (slice src srcOffset srcSize) =
      slice (reduceElements kernel op metaData dst src) (first * dataType.size)
        (size * dataType.size) := by
  have room : first * dataType.size + size * dataType.size ≤ dst.length := by
    rw [length, ← Nat.add_mul]
    exact Nat.mul_le_mul_right _ bound
  have inner : (slice dst (first * dataType.size) (size * dataType.size)).length / dataType.size =
      size := by
    rw [length_slice_of_le _ _ _ room, Nat.mul_div_cancel _ positive]
  have outer : dst.length / dataType.size = count := by
    rw [length, Nat.mul_div_cancel _ positive]
  rw [reduceElements, reduceElements, inner, outer, slice_store _ _ _ _ _ bound]
  apply store_congr
  intro index small
  have scaled : (index + 1) * (8 * dataType.size) ≤ 8 * (size * dataType.size) := by
    have grows : (index + 1) * (8 * dataType.size) ≤ size * (8 * dataType.size) :=
      Nat.mul_le_mul_right _ small
    have same : size * (8 * dataType.size) = 8 * (size * dataType.size) := by ring
    omega
  have enough : (index + 1) * quantizedType.sizeBits ≤ 8 * srcSize := by
    rw [whole]
    exact Nat.mul_le_mul_right _ small
  rw [elem_slice (8 * dataType.size) dst _ _ first index (by ring) scaled,
    elem_slice quantizedType.sizeBits src _ _ first index aligned enough]

theorem reduceElements_set (metaData : DeQuantizationMetaData) (left right src : List Byte)
    (same : left.length = right.length) :
    reduceElements kernel .set metaData left src = reduceElements kernel .set metaData right src := by
  simp [reduceElements, combine, same]

theorem reduceElements_set_same (metaData : DeQuantizationMetaData) (data : List Byte) (count : Nat)
    (length : data.length = count * dataType.size) (whole : dataType.sizeBits = 8 * dataType.size)
    (same : dataType = quantizedType) : reduceElements kernel .set metaData data data = data := by
  subst same
  have copied (index : Nat) : combine kernel .set (elem (8 * dataType.size) data index)
      (operand kernel metaData (elem dataType.sizeBits data index)) =
        elem (8 * dataType.size) data index := by
    rw [combine, if_pos rfl, operand, if_pos rfl, elem_setWidth _ _ _ _ whole]
  rw [reduceElements, funext copied]
  rcases Nat.eq_zero_or_pos dataType.size with zero | positive
  · rw [zero, Nat.mul_zero] at length
    simp [store, zero, List.length_eq_zero_iff.mp length]
  · rw [length, Nat.mul_div_cancel _ positive, store_elem _ _ _ length]

theorem elem_reduceElements (op : ReduceOp) (metaData : DeQuantizationMetaData)
    (dst src : List Byte) (index : Nat) (inside : index < dst.length / dataType.size) :
    elem (8 * dataType.size) (reduceElements kernel op metaData dst src) index =
      combine kernel op (elem (8 * dataType.size) dst index)
        (operand kernel metaData (elem quantizedType.sizeBits src index)) := by
  rw [reduceElements, elem_store _ _ _ _ inside]

end Reduction

end Pccl.Ring
