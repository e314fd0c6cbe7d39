import Pccl.Shared.Elements

set_option autoImplicit false

/-!
A write buffer is the bytes written so far and a read buffer the bytes not yet read. A read that
exceeds the buffer throws `std::out_of_range`; here it is `none`.
-/

namespace Pccl.Packet

open Buffer

def writeIntegral : (bytes value : Nat) → List Byte
  | 0, _ => []
  | bytes + 1, value => BitVec.ofNat 8 (value >>> (8 * bytes)) :: writeIntegral bytes value

def readBytes (count : Nat) (buffer : List Byte) : Option (List Byte × List Byte) :=
  if buffer.length < count then none else some (buffer.take count, buffer.drop count)

-- `value = (value << 8) | data_[read_index_ + i]`; the shift leaves the low byte clear.
def bigEndian (data : List Byte) : Nat :=
  data.foldl (fun value byte => value * 256 + byte.toNat) 0

def readIntegral (bytes : Nat) (buffer : List Byte) : Option (Nat × List Byte) :=
  (readBytes bytes buffer).map fun (data, rest) => (bigEndian data, rest)

@[simp] theorem length_writeIntegral (bytes value : Nat) :
    (writeIntegral bytes value).length = bytes := by
  induction bytes with
  | zero => rfl
  | succ bytes ih => simp [writeIntegral, ih]

@[simp] theorem readBytes_append (data rest : List Byte) (count : Nat) (length : data.length = count) :
    readBytes count (data ++ rest) = some (data, rest) := by
  subst length
  simp [readBytes]

theorem bigEndian_writeIntegral (bytes value : Nat) (fits : value < 256 ^ bytes) :
    bigEndian (writeIntegral bytes value) = value := by
  have accumulated (bytes value start : Nat) :
      (writeIntegral bytes value).foldl (fun value byte => value * 256 + byte.toNat) start =
        start * 256 ^ bytes + value % 256 ^ bytes := by
    induction bytes generalizing start with
    | zero => simp [writeIntegral, Nat.mod_one]
    | succ bytes ih =>
      have width : 2 ^ (8 * bytes) = 256 ^ bytes := by rw [Nat.pow_mul]
      have split : value % 256 ^ (bytes + 1) =
          value % 256 ^ bytes + 256 ^ bytes * (value / 256 ^ bytes % 256) := Nat.mod_pow_succ
      simp only [writeIntegral, List.foldl_cons, ih, BitVec.toNat_ofNat,
        Nat.shiftRight_eq_div_pow, width, split]
      ring
  rw [bigEndian, accumulated, Nat.mod_eq_of_lt fits, Nat.zero_mul, Nat.zero_add]

@[simp] theorem readIntegral_writeIntegral (bytes value : Nat) (rest : List Byte)
    (fits : value < 256 ^ bytes) :
    readIntegral bytes (writeIntegral bytes value ++ rest) = some (value, rest) := by
  simp [readIntegral, bigEndian_writeIntegral bytes value fits]

end Pccl.Packet
