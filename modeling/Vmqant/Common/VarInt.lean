import Mathlib

/-!
# Base-128 integers

The variable-length integers of several wire formats: seven bits a byte, least significant group
first, with the top bit set on every byte but the last. `VarInt.encode` is the shortest encoding.
`Canonical` says what a canonical encoding is without saying how it is made; `canonical_iff` is that there
is one for each number, the one `encode` makes.
-/

namespace VarInt

/-- The shortest base-128 encoding of `n`. -/
def encode (n : ℕ) : List UInt8 :=
  if n < 128 then [UInt8.ofNat n] else UInt8.ofNat (n % 128 + 128) :: encode (n / 128)

theorem encode_of_lt {n : ℕ} (h : n < 128) : encode n = [UInt8.ofNat n] := by
  rw [encode, if_pos h]

theorem encode_of_ge {n : ℕ} (h : 128 ≤ n) :
    encode n = UInt8.ofNat (n % 128 + 128) :: encode (n / 128) := by
  rw [encode, if_neg (Nat.not_lt.mpr h)]

theorem toNat_low {n : ℕ} (h : n < 128) : (UInt8.ofNat n).toNat = n := by
  rw [UInt8.toNat_ofNat']
  omega

theorem toNat_high (n : ℕ) : (UInt8.ofNat (n % 128 + 128)).toNat = n % 128 + 128 := by
  rw [UInt8.toNat_ofNat']
  omega

/-- The encoding says where it ends. -/
theorem encode_append_inj {m n : ℕ} {xs ys : List UInt8} (h : encode m ++ xs = encode n ++ ys) :
    m = n ∧ xs = ys := by
  induction m using Nat.strong_induction_on generalizing n with
  | _ m ih =>
    by_cases hm : m < 128
    · rw [encode_of_lt hm] at h
      by_cases hn : n < 128
      · rw [encode_of_lt hn] at h
        obtain ⟨hhead, htail⟩ := List.cons.inj h
        have hval := congrArg UInt8.toNat hhead
        rw [toNat_low hm, toNat_low hn] at hval
        exact ⟨hval, htail⟩
      · rw [encode_of_ge (Nat.not_lt.mp hn)] at h
        have hval := congrArg UInt8.toNat (List.cons.inj h).1
        rw [toNat_low hm, toNat_high] at hval
        omega
    · have hge := Nat.not_lt.mp hm
      rw [encode_of_ge hge] at h
      by_cases hn : n < 128
      · rw [encode_of_lt hn] at h
        have hval := congrArg UInt8.toNat (List.cons.inj h).1
        rw [toNat_high, toNat_low hn] at hval
        omega
      · rw [encode_of_ge (Nat.not_lt.mp hn)] at h
        obtain ⟨hhead, htail⟩ := List.cons.inj h
        have hval := congrArg UInt8.toNat hhead
        rw [toNat_high, toNat_high] at hval
        obtain ⟨hdiv, hrest⟩ := ih (m / 128) (by omega) htail
        exact ⟨by omega, hrest⟩

/-! ## The canonical form -/

/-- `bs` is the canonical encoding of `n`: the base-128 digits of `n`, least significant first, every byte
but the last marked as continued, and no zero digit at the end unless it is the only one. -/
structure Canonical (n : ℕ) (bs : List UInt8) : Prop where
  ne_nil : bs ≠ []
  continued : ∀ b ∈ bs.dropLast, 128 ≤ b.toNat
  last_lt : (bs.getLast ne_nil).toNat < 128
  value : Nat.ofDigits 128 (bs.map fun b => b.toNat % 128) = n
  minimal : 1 < bs.length → bs.getLast ne_nil ≠ 0

theorem canonical_singleton {b : UInt8} (h : b.toNat < 128) : Canonical b.toNat [b] where
  ne_nil := List.cons_ne_nil b []
  continued := by simp
  last_lt := h
  value := by simpa using h
  minimal := by simp

/-- One more digit in front; what follows must not be zero. -/
theorem Canonical.cons {m : ℕ} {bs : List UInt8} (h : Canonical m bs) (hm : m ≠ 0) {b : UInt8}
    (hb : 128 ≤ b.toNat) : Canonical (b.toNat % 128 + 128 * m) (b :: bs) where
  ne_nil := List.cons_ne_nil b bs
  continued := by
    intro c hc
    rw [List.dropLast_cons_of_ne_nil h.ne_nil] at hc
    rcases List.mem_cons.mp hc with rfl | hc
    · exact hb
    · exact h.continued c hc
  last_lt := by
    rw [List.getLast_cons h.ne_nil]
    exact h.last_lt
  value := by
    rw [List.map_cons, Nat.ofDigits_cons, h.value]
  minimal := by
    intro _ hzero
    rw [List.getLast_cons h.ne_nil] at hzero
    -- a zero at the end of `bs` is all of `bs`, and then `m` is zero
    obtain ⟨c, cs, rfl⟩ := List.exists_cons_of_ne_nil h.ne_nil
    cases cs with
    | nil =>
      have hvalue := h.value
      rw [List.getLast_singleton] at hzero
      rw [hzero] at hvalue
      exact hm hvalue.symm
    | cons d ds => exact h.minimal (by simp) hzero

/-- A canonical encoding of more than one byte, taken apart. -/
theorem Canonical.tail {n : ℕ} {b c : UInt8} {cs : List UInt8} (h : Canonical n (b :: c :: cs)) :
    128 ≤ b.toNat ∧ ∃ m, n = b.toNat % 128 + 128 * m ∧ Canonical m (c :: cs) where
  left := h.continued b (by simp)
  right := by
    refine ⟨Nat.ofDigits 128 ((c :: cs).map fun b => b.toNat % 128), ?_, List.cons_ne_nil c cs,
      ?_, ?_, rfl, ?_⟩
    · rw [← h.value, List.map_cons, Nat.ofDigits_cons]
    · intro d hd
      refine h.continued d ?_
      rw [List.dropLast_cons_of_ne_nil (List.cons_ne_nil c cs)]
      exact List.mem_cons_of_mem b hd
    · have hlast := h.last_lt
      rwa [List.getLast_cons (List.cons_ne_nil c cs)] at hlast
    · intro _
      have hlast := h.minimal (by simp)
      rwa [List.getLast_cons (List.cons_ne_nil c cs)] at hlast

theorem canonical_encode (n : ℕ) : Canonical n (encode n) := by
  induction n using Nat.strong_induction_on with
  | _ n ih =>
    by_cases hn : n < 128
    · have hone := canonical_singleton (b := UInt8.ofNat n) (by rwa [toNat_low hn])
      rw [encode_of_lt hn]
      rwa [toNat_low hn] at hone
    · have hge := Nat.not_lt.mp hn
      have hcons := (ih (n / 128) (by omega)).cons (by omega) (b := UInt8.ofNat (n % 128 + 128))
        (by rw [toNat_high]; omega)
      have hvalue : (UInt8.ofNat (n % 128 + 128)).toNat % 128 + 128 * (n / 128) = n := by
        rw [toNat_high]
        omega
      rw [encode_of_ge hge]
      rwa [hvalue] at hcons

/-- Every number has one canonical encoding, and it is the one `encode` makes. -/
theorem canonical_iff {n : ℕ} {bs : List UInt8} : Canonical n bs ↔ bs = encode n := by
  constructor
  · intro h
    induction bs generalizing n with
    | nil => exact absurd rfl h.ne_nil
    | cons b cs ih =>
      cases cs with
      | nil =>
        have hlt : b.toNat < 128 := h.last_lt
        have hn : b.toNat % 128 = n := by simpa using h.value
        rw [Nat.mod_eq_of_lt hlt] at hn
        rw [← hn, encode_of_lt hlt, UInt8.ofNat_toNat]
      | cons c cs =>
        obtain ⟨hb, m, rfl, hm⟩ := h.tail
        have hlt := b.toNat_lt
        have htail := ih hm
        -- a zero rest would be encoded as the zero byte, which is not minimal
        have hm0 : m ≠ 0 := by
          rintro rfl
          rw [encode_of_lt (by decide)] at htail
          obtain ⟨rfl, rfl⟩ := List.cons.inj htail
          exact h.minimal (by simp) rfl
        have hmod : (b.toNat % 128 + 128 * m) % 128 + 128 = b.toNat := by omega
        have hdiv : (b.toNat % 128 + 128 * m) / 128 = m := by omega
        rw [encode_of_ge (by omega), hmod, hdiv, UInt8.ofNat_toNat, htail]
  · rintro rfl
    exact canonical_encode n

/-- The encoding of a number of at most `k` groups. -/
theorem length_encode_le {k n : ℕ} (h : n < 128 ^ (k + 1)) : (encode n).length ≤ k + 1 := by
  induction k generalizing n with
  | zero => rw [encode_of_lt (by omega), List.length_singleton]
  | succ k ih =>
    by_cases hn : n < 128
    · rw [encode_of_lt hn, List.length_singleton]
      omega
    · have hdiv : n / 128 < 128 ^ (k + 1) := Nat.div_lt_of_lt_mul (by rwa [pow_succ'] at h)
      have htail := ih hdiv
      rw [encode_of_ge (Nat.not_lt.mp hn), List.length_cons]
      omega

end VarInt
