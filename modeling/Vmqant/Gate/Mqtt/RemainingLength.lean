import Vmqant.Gate.Mqtt.Truncation
import Vmqant.Gate.Mqtt.WriteLock

/-!
# The remaining-length codec

Reference: `gate/base/mqtt/mqtt.go`, lines 324-348 and 807-823.

The encoder counts digits from 0 into a buffer of four. The decoder counts in `count_len`, which is 1 when the
loop starts and goes up before the test `count_len < 4`: the first digit is counted as the second, and no
more than three are read. `remainingLength_codec_iff` says for which lengths the two fit together;
`getRemainingLength_eq_some_iff` is that the encoder on its own is right up to four digits, and
`readRemainingLength_long` what becomes of the fourth.
-/

namespace Vmqant.Mqtt

open ByteStream

/-- The remaining-length loop of `ReadPack`, with the read in front of it. -/
def readRemainingLength : Reader PackErr ℕ := do
  let tempByte ← readByte
  readLength tempByte 1 0 2

/-- `ReadPack` runs the loop on what follows the first byte. -/
theorem readPack_eq (maxPackLength : ℤ) :
    readPack maxPackLength = (do
      let fixed ← readByte
      let length ← readRemainingLength
      if (length : ℤ) > maxPackLength then throw (.custom (.outOfMaxLength maxPackLength))
      else
        let variable_ ← readVariable (fixed >>> 4) ((fixed &&& 15 &&& 7) >>> 1) length
        pure { msgType := fixed >>> 4, dupFlag := (fixed &&& 15) >>> 3,
               qosLevel := (fixed &&& 15 &&& 7) >>> 1, retain := fixed &&& 15 &&& 7 &&& 1, length,
               variable_ }) := by
  simp only [readPack, readRemainingLength, bind_assoc]

/-- The two ends agree on `n`, with the bytes `bs`: they are the canonical encoding of `n`, as
`getRemainingLength` makes it, and the loop takes exactly them off the front of a stream and returns `n`. -/
structure CarriesLength (n : ℕ) (bs : List UInt8) : Prop where
  encodes : getRemainingLength n = some bs
  canonical : VarInt.Canonical n bs
  length_pos : 1 ≤ bs.length
  length_le : bs.length ≤ 4
  decodes : Reads readRemainingLength bs n

/-! ## The encoder -/

/-- `getRemainingLength` makes the canonical encoding of what fits into four digits, and panics otherwise. -/
theorem getRemainingLength_eq_some_iff {n : ℕ} {bs : List UInt8} :
    getRemainingLength n = some bs ↔ n < 128 ^ 4 ∧ VarInt.Canonical n bs := by
  rw [VarInt.canonical_iff]
  constructor
  · intro h
    by_cases hn : n < 128 ^ 4
    · rw [getRemainingLength_eq hn] at h
      exact ⟨hn, (Option.some.inj h).symm⟩
    · rw [getRemainingLength_eq_none (Nat.not_lt.mp hn)] at h
      exact nomatch h
  · rintro ⟨hn, rfl⟩
    exact getRemainingLength_eq hn

/-- The encoding has between one and four bytes. -/
theorem getRemainingLength_bounds {n : ℕ} {bs : List UInt8} (h : getRemainingLength n = some bs) :
    1 ≤ bs.length ∧ bs.length ≤ 4 := by
  obtain ⟨hn, hcanonical⟩ := getRemainingLength_eq_some_iff.mp h
  have hpos : 0 < bs.length := List.length_pos_iff.mpr hcanonical.ne_nil
  rw [VarInt.canonical_iff.mp hcanonical] at hpos ⊢
  exact ⟨hpos, VarInt.length_encode_le hn⟩

/-! ## The decoder -/

theorem readRemainingLength_eq_ok {n : ℕ} {s s' : List UInt8} :
    readRemainingLength s = .ok n s' ↔ ∃ len, s = len ++ s' ∧ LengthBytes 2 len n := by
  constructor
  · intro h
    obtain ⟨t, s₁, hbyte, hloop⟩ := bind_eq_ok.mp h
    obtain rfl := readByte_eq_ok.mp hbyte
    obtain ⟨bs, l, rfl, hl, rfl⟩ := readLength_eq_ok.mp hloop
    refine ⟨t :: bs, rfl, ?_⟩
    rwa [Nat.zero_add, Nat.mul_one]
  · rintro ⟨len, rfl, hlen⟩
    obtain ⟨t, bs, rfl⟩ : ∃ t bs, len = t :: bs := by
      cases hlen <;> exact ⟨_, _, rfl⟩
    refine bind_eq_ok.mpr ⟨t, bs ++ s', readByte_eq_ok.mpr rfl, ?_⟩
    exact readLength_eq_ok.mpr ⟨bs, n, rfl, hlen, by omega⟩

/-- Length bytes are read whatever follows them. -/
theorem LengthBytes.reads {n : ℕ} {len : List UInt8} (h : LengthBytes 2 len n) :
    Reads readRemainingLength len n :=
  fun _ => readRemainingLength_eq_ok.mpr ⟨len, rfl, h⟩

/-- Of a length of four digits the loop reads the first three, and leaves the last to the fields that
follow. -/
theorem readRemainingLength_long {n : ℕ} (hge : 2 ^ 21 ≤ n) (hlt : n < 2 ^ 28) :
    ∃ len last, getRemainingLength n = some (len ++ [last]) ∧ len.length = 3 ∧
      Reads readRemainingLength len (n % 2 ^ 21) := by
  have hpow : 128 ^ (2 + 1) = 2 ^ 21 := by norm_num
  have hpow' : 128 ^ 4 = 2 ^ 28 := by norm_num
  obtain ⟨len, hencode, hlen, hbytes⟩ := @lengthBytes_long 2 n (by rwa [hpow]) (by rwa [hpow'])
  rw [hpow] at hencode hbytes
  refine ⟨len, UInt8.ofNat (n / 2 ^ 21), ?_, hlen, hbytes.reads⟩
  rw [getRemainingLength_eq (by rwa [hpow']), hencode]

/-! ## Both together -/

/-- Up to three digits the codec is one. -/
theorem carriesLength_encode {n : ℕ} (h : n ≤ 2097151) : CarriesLength n (VarInt.encode n) := by
  have hencodes := getRemainingLength_eq (n := n) (by omega)
  obtain ⟨hpos, hle⟩ := getRemainingLength_bounds hencodes
  exact ⟨hencodes, VarInt.canonical_encode n, hpos, hle, readLength_encode h⟩

/-- With a fourth digit the loop does not return the number, whatever it is. -/
theorem not_carriesLength_of_long {n : ℕ} (h : 2097152 ≤ n) (bs : List UInt8) : ¬ CarriesLength n bs := by
  intro hbs
  have hlt := (getRemainingLength_eq_some_iff.mp hbs.encodes).1
  obtain ⟨len, last, hencodes, -, hreads⟩ := readRemainingLength_long (by omega) (by omega)
  obtain rfl : bs = len ++ [last] := Option.some.inj (hbs.encodes.symm.trans hencodes)
  -- the loop leaves `last`, where it should leave nothing
  have hall := hbs.decodes []
  rw [List.append_nil, hreads [last]] at hall
  exact absurd (EStateM.Result.ok.inj hall).2 (List.cons_ne_nil last [])

/-- A length goes through the codec if and only if it has at most three digits. -/
theorem remainingLength_codec_iff (n : ℕ) : (∃ bs, CarriesLength n bs) ↔ n ≤ 2097151 := by
  constructor
  · rintro ⟨bs, hbs⟩
    by_contra hn
    exact not_carriesLength_of_long (by omega) bs hbs
  · intro h
    exact ⟨VarInt.encode n, carriesLength_encode h⟩

/-- The first length of four digits is read as 0, and its last byte is left. -/
theorem remainingLength_four_digits :
    2097152 ≤ 268435455 ∧ getRemainingLength 2097152 = some [128, 128, 128, 1] ∧
      readRemainingLength [128, 128, 128, 1] = .ok 0 [1] ∧ ¬ ∃ bs, CarriesLength 2097152 bs := by
  have hencodes : getRemainingLength 2097152 = some [128, 128, 128, 1] := by decide +kernel
  have hreads : readRemainingLength [128, 128, 128, 1] = .ok 0 [1] := by decide +kernel
  refine ⟨by omega, hencodes, hreads, ?_⟩
  rintro ⟨bs, hbs⟩
  obtain rfl : bs = [128, 128, 128, 1] := Option.some.inj (hbs.encodes.symm.trans hencodes)
  have hall := hbs.decodes []
  rw [List.append_nil, hreads] at hall
  cases hall

end Vmqant.Mqtt
