import Mathlib

/-!
# Values as bytes

A pair of functions that write a value as bytes and read it back. Either may fail, as the encoders of a
standard library do.
-/

structure ByteCodec (α : Type) where
  encode : α → Except String (List UInt8)
  decode : List UInt8 → Except String α

namespace ByteCodec

variable {α : Type} {c : ByteCodec α} {a : α}

/-- `a` can be written, and is what is read from its bytes. -/
def RoundTrips (c : ByteCodec α) (a : α) : Prop := ∃ bs, c.encode a = .ok bs ∧ c.decode bs = .ok a

def Lossless (c : ByteCodec α) : Prop := ∀ a, c.RoundTrips a

/-- The bytes of a value, none when it cannot be written. -/
def bytes (c : ByteCodec α) (a : α) : List UInt8 := (c.encode a).toOption.getD []

theorem RoundTrips.encode_eq (h : c.RoundTrips a) : c.encode a = .ok (c.bytes a) := by
  obtain ⟨bs, hbs, -⟩ := h
  unfold bytes
  rw [hbs]
  rfl

theorem RoundTrips.decode_bytes (h : c.RoundTrips a) : c.decode (c.bytes a) = .ok a := by
  obtain ⟨bs, hbs, hdecode⟩ := h
  unfold bytes
  rw [hbs]
  exact hdecode

section Carried

open Classical

/-- The codec of the values that survive it. -/
noncomputable def carried (c : ByteCodec α) : ByteCodec {a // c.RoundTrips a} where
  encode a := c.encode a.1
  decode bs :=
    match c.decode bs with
    | .error err => .error err
    | .ok a => if h : c.RoundTrips a then .ok ⟨a, h⟩ else .error "value does not survive"

theorem decode_of_carried {a : {a // c.RoundTrips a}} {bs : List UInt8} (h : c.carried.decode bs = .ok a) :
    c.decode bs = .ok a.1 := by
  unfold carried at h
  dsimp only at h
  cases hdecode : c.decode bs with
  | error err =>
    rw [hdecode] at h
    cases h
  | ok a' =>
    rw [hdecode] at h
    dsimp only at h
    split at h
    · rw [← Except.ok.inj h]
    · cases h

theorem carried_lossless (c : ByteCodec α) : c.carried.Lossless := by
  rintro ⟨a, ha⟩
  obtain ⟨bs, hencode, hdecode⟩ := id ha
  refine ⟨bs, hencode, ?_⟩
  unfold carried
  dsimp only
  rw [hdecode]
  exact dif_pos ha

end Carried

end ByteCodec
