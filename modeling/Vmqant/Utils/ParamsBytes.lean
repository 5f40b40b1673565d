import Vmqant.Common.Endian
import Vmqant.Common.Panic

/-!
# Numbers as bytes

Reference: `utils/params_bytes.go`, lines 25-92.

Integers are big-endian, floats are the bits of `math.Float32bits` and `math.Float64bits`, little-endian.
The readers take the first bytes of a longer slice and panic on a shorter one.
-/

namespace Vmqant.Mqanttools

/-- The first `n` bytes of a slice; the reader looks at the last of them first. -/
def firstBytes (n : ℕ) (buf : List UInt8) : Except PanicValue (List UInt8) :=
  if buf.length < n then throw (.indexOutOfRange (n - 1) buf.length) else pure (buf.take n)

theorem firstBytes_of_length {n : ℕ} {buf : List UInt8} (h : buf.length = n) :
    firstBytes n buf = .ok buf := by
  have htake : buf.take n = buf := List.take_of_length_le h.le
  unfold firstBytes
  rw [if_neg (lt_irrefl n ∘ h.symm.trans_lt), htake]
  rfl

def boolToBytes (v : Bool) : List UInt8 := [if v then 1 else 0]

def bytesToBool (buf : List UInt8) : Except PanicValue Bool := do
  let bs ← firstBytes 1 buf
  pure (bs != [0])

def int32ToBytes (i : Int32) : List UInt8 := Endian.putBE 4 i.toUInt32.toNat

def bytesToInt32 (buf : List UInt8) : Except PanicValue Int32 := do
  let bs ← firstBytes 4 buf
  pure (UInt32.ofNat (Endian.getBE bs)).toInt32

def int64ToBytes (i : Int64) : List UInt8 := Endian.putBE 8 i.toUInt64.toNat

def bytesToInt64 (buf : List UInt8) : Except PanicValue Int64 := do
  let bs ← firstBytes 8 buf
  pure (UInt64.ofNat (Endian.getBE bs)).toInt64

/-- `Float32ToBytes` of the float with these bits. -/
def float32ToBytes (bits : UInt32) : List UInt8 := Endian.putLE 4 bits.toNat

/-- The bits of `BytesToFloat32`. -/
def bytesToFloat32 (buf : List UInt8) : Except PanicValue UInt32 := do
  let bs ← firstBytes 4 buf
  pure (UInt32.ofNat (Endian.getLE bs))

/-- `Float64ToBytes` of the float with these bits. -/
def float64ToBytes (bits : UInt64) : List UInt8 := Endian.putLE 8 bits.toNat

/-- The bits of `BytesToFloat64`. -/
def bytesToFloat64 (buf : List UInt8) : Except PanicValue UInt64 := do
  let bs ← firstBytes 8 buf
  pure (UInt64.ofNat (Endian.getLE bs))

/-! ## Round trips -/

theorem bytesToBool_boolToBytes (v : Bool) : bytesToBool (boolToBytes v) = .ok v := by
  cases v <;> rfl

theorem bytesToInt32_int32ToBytes (i : Int32) : bytesToInt32 (int32ToBytes i) = .ok i := by
  have hlt : i.toUInt32.toNat < 256 ^ 4 := i.toUInt32.toNat_lt
  unfold bytesToInt32 int32ToBytes
  rw [firstBytes_of_length (Endian.length_putBE _ _)]
  change Except.ok (UInt32.ofNat (Endian.getBE (Endian.putBE 4 i.toUInt32.toNat))).toInt32 = _
  rw [Endian.getBE_putBE _ _ hlt, UInt32.ofNat_toNat]
  rfl

theorem bytesToInt64_int64ToBytes (i : Int64) : bytesToInt64 (int64ToBytes i) = .ok i := by
  have hlt : i.toUInt64.toNat < 256 ^ 8 := i.toUInt64.toNat_lt
  unfold bytesToInt64 int64ToBytes
  rw [firstBytes_of_length (Endian.length_putBE _ _)]
  change Except.ok (UInt64.ofNat (Endian.getBE (Endian.putBE 8 i.toUInt64.toNat))).toInt64 = _
  rw [Endian.getBE_putBE _ _ hlt, UInt64.ofNat_toNat]
  rfl

theorem bytesToFloat32_float32ToBytes (bits : UInt32) :
    bytesToFloat32 (float32ToBytes bits) = .ok bits := by
  have hlt : bits.toNat < 256 ^ 4 := bits.toNat_lt
  unfold bytesToFloat32 float32ToBytes
  rw [firstBytes_of_length (Endian.length_putLE _ _)]
  change Except.ok (UInt32.ofNat (Endian.getLE (Endian.putLE 4 bits.toNat))) = _
  rw [Endian.getLE_putLE _ _ hlt, UInt32.ofNat_toNat]

theorem bytesToFloat64_float64ToBytes (bits : UInt64) :
    bytesToFloat64 (float64ToBytes bits) = .ok bits := by
  have hlt : bits.toNat < 256 ^ 8 := bits.toNat_lt
  unfold bytesToFloat64 float64ToBytes
  rw [firstBytes_of_length (Endian.length_putLE _ _)]
  change Except.ok (UInt64.ofNat (Endian.getLE (Endian.putLE 8 bits.toNat))) = _
  rw [Endian.getLE_putLE _ _ hlt, UInt64.ofNat_toNat]

end Vmqant.Mqanttools
