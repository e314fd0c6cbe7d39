import Pccl.Packet.PacketBuffer
import Pccl.Ring.Types

set_option autoImplicit false

namespace Pccl.Ring

open Buffer Packet

def dequantizationMetaPacketId : Nat := 3

namespace DeQuantizationMetaData

def serialize (metaData : DeQuantizationMetaData) : List Byte :=
  match metaData.metaType with
  | .minMax =>
    writeIntegral 1 0 ++ writeIntegral 1 metaData.minMaxDataType.code ++ metaData.minValue ++
      metaData.maxValue
  | .zeroPointScale =>
    writeIntegral 1 1 ++ writeIntegral 1 metaData.zeroPointType.code ++ metaData.zeroPoint ++
      writeIntegral 1 metaData.scaleType.code ++ metaData.scale

-- `none` stands for an exception; a data type below a byte has no size and throws.
def readDataType (buffer : List Byte) : Option (DataType × Nat × List Byte) := do
  let (code, buffer) ← readIntegral 1 buffer
  let dataType ← DataType.ofCode code
  let bytes ← dataType.size?
  some (dataType, bytes, buffer)

def deserialize (buffer : List Byte) : Option (Option DeQuantizationMetaData) := do
  -- The outer `none` is an exception, the inner one `deserialize` returning false.
  let (metaType, buffer) ← readIntegral 1 buffer
  match metaType with
  | 0 =>
    let (dataType, bytes, buffer) ← readDataType buffer
    let (minValue, buffer) ← readBytes bytes buffer
    let (maxValue, _) ← readBytes bytes buffer
    some (some (makeMinMax dataType minValue maxValue))
  | 1 =>
    let (zeroPointType, zeroPointBytes, buffer) ← readDataType buffer
    let (zeroPoint, buffer) ← readBytes zeroPointBytes buffer
    let (scaleType, scaleBytes, buffer) ← readDataType buffer
    let (scale, _) ← readBytes scaleBytes buffer
    some (some (makeZeroPointScale zeroPointType scaleType zeroPoint scale))
  | _ => some none

theorem readDataType_writeIntegral (dataType : DataType) (rest : List Byte) :
    readDataType (writeIntegral 1 dataType.code ++ rest) =
      dataType.size?.map fun bytes => (dataType, bytes, rest) := by
  have fits : dataType.code < 256 ^ 1 := by cases dataType <;> decide
  cases known : dataType.size? <;>
    simp [readDataType, readIntegral_writeIntegral _ _ _ fits, known]

theorem deserialize_serialize (metaData : DeQuantizationMetaData) (made : Made metaData) :
    deserialize metaData.serialize = some (some metaData) := by
  cases made with
  | minMax dataType bytes minValue maxValue known minLength maxLength =>
    simp only [serialize, makeMinMax, List.append_assoc, deserialize, Option.bind_eq_bind,
      readIntegral_writeIntegral 1 0 _ (by decide), Option.bind_some,
      readDataType_writeIntegral, known, Option.map_some,
      readBytes_append minValue maxValue bytes minLength]
    rw [← List.append_nil maxValue, readBytes_append maxValue [] bytes maxLength]
    simp
  | zeroPointScale zeroPointType scaleType zeroPointBytes scaleBytes zeroPoint scale zeroPointKnown
      scaleKnown zeroPointLength scaleLength =>
    simp only [serialize, makeZeroPointScale, List.append_assoc, deserialize, Option.bind_eq_bind,
      readIntegral_writeIntegral 1 1 _ (by decide), Option.bind_some,
      readDataType_writeIntegral, zeroPointKnown, scaleKnown, Option.map_some,
      readBytes_append zeroPoint _ zeroPointBytes zeroPointLength]
    rw [← List.append_nil scale, readBytes_append scale [] scaleBytes scaleLength]
    simp

theorem deserialize_initial : deserialize initial.serialize = none := by
  decide

end DeQuantizationMetaData

def sendMetaPacket (tag : BitVec 64) (metaData : DeQuantizationMetaData) : List Byte :=
  writeIntegral 2 dequantizationMetaPacketId ++ (writeIntegral 8 tag.toNat ++ metaData.serialize)

def receiveMetaPacket (frame : List Byte) : Option (Option DeQuantizationMetaData) := do
  -- What `receivePacket` makes of a frame; the outer `none` is an exception.
  let (packetId, buffer) ← readIntegral 2 frame
  if packetId = dequantizationMetaPacketId then
    let (_, buffer) ← readIntegral 8 buffer
    DeQuantizationMetaData.deserialize buffer
  else
    some none

theorem receiveMetaPacket_sendMetaPacket (tag : BitVec 64) (metaData : DeQuantizationMetaData) :
    receiveMetaPacket (sendMetaPacket tag metaData) =
      DeQuantizationMetaData.deserialize metaData.serialize := by
  have fits : tag.toNat < 256 ^ 8 := lt_of_lt_of_eq tag.isLt (by norm_num)
  simp [receiveMetaPacket, sendMetaPacket, dequantizationMetaPacketId,
    readIntegral_writeIntegral 2 3 _ (by decide), readIntegral_writeIntegral 8 _ _ fits]

end Pccl.Ring
