import Mathlib

/-!
# Hexadecimal text

Bytes written with two digits each, the high half first. The reader takes digits of either case.
-/

namespace Hex

/-- The digit of a value below 16, in lower case. -/
def digit (n : ℕ) : UInt8 := if n < 10 then UInt8.ofNat (0x30 + n) else UInt8.ofNat (0x57 + n)

/-- The value of a digit. -/
def value (c : UInt8) : Option ℕ :=
  if 0x30 ≤ c ∧ c ≤ 0x39 then some (c.toNat - 0x30)
  else if 0x61 ≤ c ∧ c ≤ 0x66 then some (c.toNat - 0x57)
  else if 0x41 ≤ c ∧ c ≤ 0x46 then some (c.toNat - 0x37)
  else none

def encodeByte (b : UInt8) : List UInt8 := [digit (b.toNat / 16), digit (b.toNat % 16)]

def encode (bs : List UInt8) : List UInt8 := bs.flatMap encodeByte

/-- The bytes of a text of digits; there are none when a character is no digit or one digit is left
over. -/
def decode : List UInt8 → Option (List UInt8)
  | [] => some []
  | [_] => none
  | c :: c' :: cs =>
    match value c, value c' with
    | some hi, some lo => (decode cs).map fun bs => UInt8.ofNat (16 * hi + lo) :: bs
    | _, _ => none

theorem value_digit {n : ℕ} (h : n < 16) : value (digit n) = some n := by
  have hall : ∀ m : Fin 16, value (digit m) = some (m : ℕ) := by decide
  exact hall ⟨n, h⟩

theorem decode_encode (bs : List UInt8) : decode (encode bs) = some bs := by
  induction bs with
  | nil => rfl
  | cons b bs ih =>
    have hb : b.toNat < 256 := b.toNat_lt
    have hhi : value (digit (b.toNat / 16)) = some (b.toNat / 16) := value_digit (by omega)
    have hlo : value (digit (b.toNat % 16)) = some (b.toNat % 16) :=
      value_digit (Nat.mod_lt _ (by decide))
    have hcons : encode (b :: bs)
        = digit (b.toNat / 16) :: digit (b.toNat % 16) :: encode bs := rfl
    rw [hcons, decode, hhi, hlo, ih]
    dsimp only [Option.map_some]
    rw [Nat.div_add_mod, UInt8.ofNat_toNat]

end Hex
