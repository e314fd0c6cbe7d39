import Pccl.Shared.Elements

set_option autoImplicit false

namespace Pccl.Ring

open Buffer

inductive DataType where
  | uint2 | uint4 | uint8 | int8 | uint16 | uint32 | int16 | int32 | uint64 | int64
  | float16 | bfloat16 | float | double
deriving DecidableEq, Repr

inductive ReduceOp where
  | set | sum | avg | prod | max | min
deriving DecidableEq, Repr

inductive QuantizationAlgorithm where
  | none | minMax | zeroPointScale
deriving DecidableEq, Repr

namespace DataType

def sizeBits : DataType → Nat
  | uint2 => 2
  | uint4 => 4
  | uint8 | int8 => 8
  | uint16 | int16 | float16 | bfloat16 => 16
  | uint32 | int32 | float => 32
  | uint64 | int64 | double => 64

-- `ccoip_data_type_size` throws for the two types narrower than a byte.
def size? : DataType → Option Nat
  | uint2 | uint4 => Option.none
  | uint8 | int8 => some 1
  | uint16 | int16 | float16 | bfloat16 => some 2
  | uint32 | int32 | float => some 4
  | uint64 | int64 | double => some 8

def size (dataType : DataType) : Nat := dataType.size?.getD 0

def isSigned : DataType → Bool
  | int8 | int16 | int32 | int64 => true
  | _ => false

def isUnsigned : DataType → Bool
  | uint8 | uint16 | uint32 | uint64 => true
  | _ => false

def isInteger (dataType : DataType) : Bool := dataType.isSigned || dataType.isUnsigned

-- The enumerator's number in the source, which is its byte on the wire.
def code : DataType → Nat
  | uint2 => 0
  | uint4 => 1
  | uint8 => 2
  | int8 => 3
  | uint16 => 4
  | uint32 => 5
  | int16 => 6
  | int32 => 7
  | uint64 => 8
  | int64 => 9
  | float16 => 10
  | bfloat16 => 11
  | float => 12
  | double => 13

def ofCode (code : Nat) : Option DataType :=
  [uint2, uint4, uint8, int8, uint16, uint32, int16, int32, uint64, int64,
    float16, bfloat16, float, double][code]?

@[simp] theorem ofCode_code (dataType : DataType) : ofCode dataType.code = some dataType := by
  cases dataType <;> rfl

theorem sizeBits_of_size (dataType : DataType) (bytes : Nat) (whole : dataType.size? = some bytes) :
    dataType.sizeBits = 8 * bytes ∧ dataType.size = bytes ∧ 0 < bytes := by
  cases dataType <;> simp only [size?, Option.some.injEq, reduceCtorEq] at whole <;>
    subst whole <;> decide

end DataType

inductive DeQuantizationMetaType where
  | minMax | zeroPointScale
deriving DecidableEq, Repr

structure DeQuantizationMetaData where
  metaType : DeQuantizationMetaType
  minMaxDataType : DataType
  zeroPointType : DataType
  scaleType : DataType
  minValue : List Byte
  maxValue : List Byte
  zeroPoint : List Byte
  scale : List Byte
deriving DecidableEq, Repr

namespace DeQuantizationMetaData

-- `DeQuantizationMetaData{}`: every enumerator is zero and every vector is empty.
def initial : DeQuantizationMetaData :=
  ⟨.minMax, .uint2, .uint2, .uint2, [], [], [], []⟩

def makeMinMax (dataType : DataType) (minValue maxValue : List Byte) : DeQuantizationMetaData :=
  { initial with metaType := .minMax, minMaxDataType := dataType, minValue, maxValue }

def makeZeroPointScale (zeroPointType scaleType : DataType) (zeroPoint scale : List Byte) :
    DeQuantizationMetaData :=
  { initial with metaType := .zeroPointScale, zeroPointType, scaleType, zeroPoint, scale }

/-- The values the two factories build: each vector holds one value of its type. -/
inductive Made : DeQuantizationMetaData → Prop
  | minMax (dataType : DataType) (bytes : Nat) (minValue maxValue : List Byte) :
      dataType.size? = some bytes → minValue.length = bytes → maxValue.length = bytes →
      Made (makeMinMax dataType minValue maxValue)
  | zeroPointScale (zeroPointType scaleType : DataType) (zeroPointBytes scaleBytes : Nat)
      (zeroPoint scale : List Byte) :
      zeroPointType.size? = some zeroPointBytes → scaleType.size? = some scaleBytes →
      zeroPoint.length = zeroPointBytes → scale.length = scaleBytes →
      Made (makeZeroPointScale zeroPointType scaleType zeroPoint scale)

end DeQuantizationMetaData

end Pccl.Ring
