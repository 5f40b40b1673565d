import Vmqant.Common.GoInt
import Vmqant.Common.Printf

/-!
# Numbers in base 62

Reference: `utils/base62.go`, lines 23-55.

The digits are written with the least significant one first, through the letters of `CODE62`, and read through
the table `EDOC` and the powers of 62.
-/

namespace Vmqant.Mqanttools

open GoInt
open Printf (ascii)
open Utf8 (trimSpace)

def code62 : List UInt8 := ascii "0123456789abcdefghijklmnopqrstuvwxyzABCDEFGHIJKLMNOPQRSTUVWXYZ"

def codeLenth : Int64 := 62

/-- `EDOC`. -/
def edoc : List (UInt8 × Int64) :=
  [('0', 0), ('1', 1), ('2', 2), ('3', 3), ('4', 4), ('5', 5), ('6', 6), ('7', 7), ('8', 8), ('9', 9),
    ('a', 10), ('b', 11), ('c', 12), ('d', 13), ('e', 14), ('f', 15), ('g', 16), ('h', 17), ('i', 18),
    ('j', 19), ('k', 20), ('l', 21), ('m', 22), ('n', 23), ('o', 24), ('p', 25), ('q', 26), ('r', 27),
    ('s', 28), ('t', 29), ('u', 30), ('v', 31), ('w', 32), ('x', 33), ('y', 34), ('z', 35), ('A', 36),
    ('B', 37), ('C', 38), ('D', 39), ('E', 40), ('F', 41), ('G', 42), ('H', 43), ('I', 44), ('J', 45),
    ('K', 46), ('L', 47), ('M', 48), ('N', 49), ('O', 50), ('P', 51), ('Q', 52), ('R', 53), ('S', 54),
    ('T', 55), ('U', 56), ('V', 57), ('W', 58), ('X', 59), ('Y', 60), ('Z', 61)].map
    fun (c, n) => (c.toUInt8, n)

/-- `EDOC[string(char)]`, which is 0 for a byte that is no digit. -/
def value (char : UInt8) : Int64 := (edoc.lookup char).getD 0

theorem div_codeLenth {number : Int64} {m : ℕ} (h : IsNat number m) : IsNat (number / codeLenth) (m / 62) :=
  h.div (y := codeLenth) (k := 62) rfl

theorem mod_codeLenth {number : Int64} {m : ℕ} (h : IsNat number m) : IsNat (number % codeLenth) (m % 62) :=
  h.mod (y := codeLenth) (k := 62) rfl

theorem div_codeLenth_lt {number : Int64} (h : number > 0) :
    (number / codeLenth).toNatClampNeg < number.toNatClampNeg := by
  have hnat : IsNat number number.toNatClampNeg := isNat_of_nonneg (Int64.le_of_lt h)
  have hpos : 0 < number.toNatClampNeg := (isNat_zero.lt_iff hnat).mp h
  have hdiv : (number / codeLenth).toNatClampNeg = number.toNatClampNeg / 62 :=
    congrArg Int.toNat (div_codeLenth hnat)
  rw [hdiv]
  exact Nat.div_lt_self hpos (by omega)

/-- The loop of `IntToBase62`. -/
def writeDigits (number : Int64) (result : List UInt8) : Except PanicValue (List UInt8) :=
  if number > 0 then do
    let round := number / codeLenth
    let remain := number % codeLenth
    let digit ← atInt code62 remain
    writeDigits round (result ++ [digit])
  else pure result
termination_by number.toNatClampNeg
decreasing_by exact div_codeLenth_lt ‹_›

/-- `IntToBase62`. -/
def intToBase62 (number : Int64) : Except PanicValue (List UInt8) :=
  if number = 0 then pure (ascii "0") else writeDigits number []

/-- The loop of `Base62ToInt`; `pow i` is `int64(math.Pow(CodeLenth, i))`. -/
def readDigits (pow : ℕ → Int64) : ℕ → Int64 → List UInt8 → Int64
  | _, result, [] => result
  | index, result, char :: str => readDigits pow (index + 1) (result + value char * pow index) str

/-- `Base62ToInt`. -/
def base62ToInt (pow : ℕ → Int64) (str : List UInt8) : Int64 := readDigits pow 0 0 (trimSpace str)

/-- No product and no sum of the loop overflows. -/
def Exact (pow : ℕ → Int64) : ℕ → Int64 → List UInt8 → Prop
  | _, _, [] => True
  | index, result, char :: str =>
    (value char * pow index).toInt = (value char).toInt * (pow index).toInt ∧
      (result + value char * pow index).toInt = result.toInt + (value char * pow index).toInt ∧
      Exact pow (index + 1) (result + value char * pow index) str

/-! ## The letters -/

/-- The letter of a digit. -/
def letter (d : ℕ) : UInt8 := code62.getD d 0

theorem code62_getElem? {d : ℕ} (h : d < 62) : code62[d]? = some (letter d) := by
  have hlength : code62.length = 62 := by decide
  rw [letter, List.getD_eq_getElem?_getD, List.getElem?_eq_getElem (by omega), Option.getD_some]

/-- The table is the inverse of the letters. -/
theorem value_letter {d : ℕ} (h : d < 62) : IsNat (value (letter d)) d := by
  have hall : ∀ d : Fin 62, (value (letter d)).toInt = (d : ℕ) := by decide +kernel
  exact hall ⟨d, h⟩

theorem exists_letter {c : UInt8} (h : c ∈ code62) : ∃ d < 62, letter d = c := by
  obtain ⟨d, hd, rfl⟩ := List.getElem_of_mem h
  have hlt : d < 62 := hd
  have hletter := code62_getElem? hlt
  rw [List.getElem?_eq_getElem hd] at hletter
  exact ⟨d, hlt, (Option.some.inj hletter).symm⟩

theorem exists_digits {s : List UInt8} (h : ∀ c ∈ s, c ∈ code62) :
    ∃ ds : List ℕ, (∀ d ∈ ds, d < 62) ∧ s = ds.map letter := by
  induction s with
  | nil => exact ⟨[], nofun, rfl⟩
  | cons c s ih =>
    obtain ⟨d, hd, rfl⟩ := exists_letter (h c List.mem_cons_self)
    obtain ⟨ds, hds, rfl⟩ := ih fun c hc => h c (List.mem_cons_of_mem _ hc)
    refine ⟨d :: ds, ?_, rfl⟩
    rw [List.forall_mem_cons]
    exact ⟨hd, hds⟩

/-- No letter is white space. -/
theorem trimSpace_letters {ds : List ℕ} (h : ∀ d ∈ ds, d < 62) :
    trimSpace (ds.map letter) = ds.map letter := by
  have hall : (Utf8.spaces.all fun w => w.all fun c => c ∉ code62) = true := by decide +kernel
  simp only [List.all_eq_true, decide_eq_true_eq] at hall
  apply Utf8.trimSpace_eq_self
  intro w hw c hc hmem
  obtain ⟨d, hd, rfl⟩ := List.mem_map.mp hmem
  exact hall w hw _ hc (List.mem_of_getElem? (code62_getElem? (h d hd)))

/-! ## The loops -/

open Nat (digits ofDigits)

/-- The digits are appended, the least significant one first. -/
theorem writeDigits_eq {number : Int64} {m : ℕ} (h : IsNat number m) (result : List UInt8) :
    writeDigits number result = .ok (result ++ (digits 62 m).map letter) := by
  induction m using Nat.strong_induction_on generalizing number result with
  | _ m ih =>
    rw [writeDigits]
    by_cases hpos : 0 < m
    · have hlt : m % 62 < 62 := Nat.mod_lt m (by omega)
      have hdigit : atInt code62 (number % codeLenth) = .ok (letter (m % 62)) := by
        rw [(mod_codeLenth h).atInt_eq, Slice.index, code62_getElem? hlt]
      rw [if_pos ((isNat_zero.lt_iff h).mpr hpos)]
      dsimp only
      rw [hdigit]
      show writeDigits (number / codeLenth) (result ++ [letter (m % 62)]) = _
      rw [ih (m / 62) (Nat.div_lt_self hpos (by omega)) (div_codeLenth h),
        Nat.digits_def' (by omega) hpos, List.map_cons, List.append_assoc]
      rfl
    · obtain rfl : m = 0 := by omega
      rw [if_neg fun hgt => hpos ((isNat_zero.lt_iff h).mp hgt), Nat.digits_zero, List.map_nil, List.append_nil]
      rfl

/-- The text of a number. -/
def text (m : ℕ) : List UInt8 := if m = 0 then [letter 0] else (digits 62 m).map letter

theorem intToBase62_eq {number : Int64} {m : ℕ} (h : IsNat number m) : intToBase62 number = .ok (text m) := by
  unfold intToBase62 text
  by_cases hzero : m = 0
  · rw [if_pos ((h.eq_iff isNat_zero).mpr hzero), if_pos hzero]
    exact congrArg Except.ok (by decide)
  · rw [if_neg fun heq => hzero ((h.eq_iff isNat_zero).mp heq), if_neg hzero, writeDigits_eq h]
    rfl

/-- `pow` is exact as far as a number reaches. -/
def Powers (pow : ℕ → Int64) : Prop := ∀ i ≤ 10, (pow i).toInt = 62 ^ i

variable {pow : ℕ → Int64}

theorem Powers.isNat (hpow : Powers pow) {i : ℕ} (hi : i ≤ 10) : IsNat (pow i) (62 ^ i) := by
  rw [IsNat, hpow i hi]
  push_cast
  rfl

/-- The digits are added up; nothing overflows where the number fits. -/
theorem readDigits_eq (hpow : Powers pow) {ds : List ℕ} (hds : ∀ d ∈ ds, d < 62) {index : ℕ}
    (hindex : index + ds.length ≤ 11) {result : Int64} {r : ℕ} (hr : IsNat result r)
    (hfits : r + 62 ^ index * ofDigits 62 ds < 2 ^ 63) :
    IsNat (readDigits pow index result (ds.map letter)) (r + 62 ^ index * ofDigits 62 ds) ∧
      Exact pow index result (ds.map letter) := by
  induction ds generalizing index result r with
  | nil =>
    rw [Nat.ofDigits_nil, Nat.mul_zero, Nat.add_zero]
    exact ⟨hr, trivial⟩
  | cons d ds ih =>
    obtain ⟨hd, hds⟩ := List.forall_mem_cons.mp hds
    rw [List.length_cons] at hindex
    have hsum : 62 ^ index * ofDigits 62 (d :: ds) = d * 62 ^ index + 62 ^ (index + 1) * ofDigits 62 ds := by
      rw [Nat.ofDigits_cons, Nat.pow_succ]
      ring
    rw [hsum] at hfits ⊢
    have hvalue := value_letter hd
    have hpower := hpow.isNat (i := index) (by omega)
    have hproduct : IsNat (value (letter d) * pow index) (d * 62 ^ index) := hvalue.mul hpower (by omega)
    have hnext : IsNat (result + value (letter d) * pow index) (r + d * 62 ^ index) :=
      hr.add hproduct (by omega)
    obtain ⟨hread, hexact⟩ := ih hds (by omega : index + 1 + ds.length ≤ 11) hnext (by omega)
    refine ⟨?_, ?_, ?_, hexact⟩
    · rw [← Nat.add_assoc]
      exact hread
    · rw [hproduct, hvalue, hpower]
      push_cast
      rfl
    · rw [hnext, hr, hproduct]
      push_cast
      rfl

theorem base62ToInt_eq (hpow : Powers pow) {ds : List ℕ} (hds : ∀ d ∈ ds, d < 62) (hlength : ds.length ≤ 11)
    (hfits : ofDigits 62 ds < 2 ^ 63) :
    IsNat (base62ToInt pow (ds.map letter)) (ofDigits 62 ds) ∧
      Exact pow 0 0 (trimSpace (ds.map letter)) := by
  have h := readDigits_eq hpow hds (by omega : 0 + ds.length ≤ 11) isNat_zero (by simpa using hfits)
  rw [Nat.pow_zero, Nat.one_mul, Nat.zero_add] at h
  rw [base62ToInt, trimSpace_letters hds]
  exact h

/-! ## The round trips -/

/-- The digits of a text, which for 0 are not those of the number. -/
theorem exists_text_eq (m : ℕ) (hm : m < 2 ^ 63) :
    ∃ ds : List ℕ, (∀ d ∈ ds, d < 62) ∧ ds.length ≤ 11 ∧ ofDigits 62 ds = m ∧ text m = ds.map letter := by
  by_cases hzero : m = 0
  · exact ⟨[0], by simp, by simp, by simp [hzero], if_pos hzero⟩
  · refine ⟨digits 62 m, fun d => Nat.digits_lt_base (by omega), ?_, Nat.ofDigits_digits 62 m, if_neg hzero⟩
    rw [Nat.digits_length_le_iff (by omega)]
    omega

/-- Numbers that are not negative are read as they were written, without an overflow, and different ones are
written differently. Texts of at most 10 digits without a zero at the end are written as they were read. -/
structure RoundTrips (pow : ℕ → Int64) : Prop where
  decode : ∀ n : Int64, 0 ≤ n → ∃ s, intToBase62 n = .ok s ∧ base62ToInt pow s = n ∧ Exact pow 0 0 (trimSpace s)
  injective : ∀ m n : Int64, 0 ≤ m → 0 ≤ n → intToBase62 m = intToBase62 n → m = n
  encode : ∀ s : List UInt8, s ≠ [] → (∀ c ∈ s, c ∈ code62) → s.length ≤ 10 →
    (s.getLast? ≠ some '0'.toUInt8 ∨ s = ascii "0") → intToBase62 (base62ToInt pow s) = .ok s

theorem intToBase62_decode (hpow : Powers pow) (n : Int64) (hn : 0 ≤ n) :
    ∃ s, intToBase62 n = .ok s ∧ base62ToInt pow s = n ∧ Exact pow 0 0 (trimSpace s) := by
  have hnat := isNat_of_nonneg hn
  have hlt : n.toInt.toNat < 2 ^ 63 := by
    have hmax := n.toInt_lt
    omega
  obtain ⟨ds, hds, hlength, hvalue, htext⟩ := exists_text_eq n.toInt.toNat hlt
  obtain ⟨hread, hexact⟩ := base62ToInt_eq hpow hds hlength (by omega)
  refine ⟨ds.map letter, ?_, ?_, hexact⟩
  · rw [intToBase62_eq hnat, htext]
  · rw [hvalue] at hread
    exact (hread.eq_iff hnat).mpr rfl

theorem letter_inj {d e : ℕ} (hd : d < 62) (he : e < 62) (h : letter d = letter e) : d = e := by
  have hvalue := value_letter hd
  rw [h] at hvalue
  exact ((hvalue.eq_iff (value_letter he)).mp rfl)

/-- Digits are those of their number if the last one is not 0, or if there is no other. -/
theorem text_ofDigits {ds : List ℕ} (hds : ∀ d ∈ ds, d < 62) (hnil : ds ≠ [])
    (hlast : ds.getLast hnil ≠ 0 ∨ ds = [0]) : text (ofDigits 62 ds) = ds.map letter := by
  rcases hlast with hlast | rfl
  · have hdigits : digits 62 (ofDigits 62 ds) = ds :=
      Nat.digits_ofDigits 62 (by omega) ds hds fun _ => hlast
    have hne : ofDigits 62 ds ≠ 0 := by
      intro hzero
      rw [hzero, Nat.digits_zero] at hdigits
      exact hnil hdigits.symm
    rw [text, if_neg hne, hdigits]
  · rfl

theorem base62ToInt_encode (hpow : Powers pow) (s : List UInt8) (hs : ∀ c ∈ s, c ∈ code62)
    (hlength : s.length ≤ 10) (hnil : s ≠ []) (hlast : s.getLast? ≠ some '0'.toUInt8 ∨ s = ascii "0") :
    intToBase62 (base62ToInt pow s) = .ok s := by
  obtain ⟨ds, hds, rfl⟩ := exists_digits hs
  rw [List.length_map] at hlength
  have hlt : ofDigits 62 ds < 2 ^ 63 := by
    have hbound := Nat.ofDigits_lt_base_pow_length (b := 62) (by omega) hds
    have hpow := Nat.pow_le_pow_right (n := 62) (by omega) hlength
    omega
  obtain ⟨hread, -⟩ := base62ToInt_eq hpow hds (by omega) hlt
  rw [intToBase62_eq hread]
  refine congrArg Except.ok (text_ofDigits hds (by simpa using hnil) ?_)
  have hzero : letter 0 = '0'.toUInt8 := by decide
  rcases hlast with hlast | hone
  · refine .inl fun hend => hlast ?_
    rw [List.getLast?_map, List.getLast?_eq_getLast_of_ne_nil (by simpa using hnil), hend, Option.map_some,
      hzero]
  · have hascii : ascii "0" = [letter 0] := by decide
    rw [hascii, List.map_eq_singleton_iff] at hone
    obtain ⟨d, rfl, hletter⟩ := hone
    have hd := hds d List.mem_cons_self
    exact .inr (congrArg (fun d => [d]) (letter_inj hd (by omega) hletter))

/-- **Base 62**: the round trips both ways. -/
theorem base62_roundTrips (pow : ℕ → Int64) (hpow : ∀ i ≤ 10, (pow i).toInt = 62 ^ i) : RoundTrips pow where
  decode := intToBase62_decode hpow
  injective m n hm hn heq := by
    obtain ⟨s, hs, hread, -⟩ := intToBase62_decode hpow m hm
    obtain ⟨t, ht, hread', -⟩ := intToBase62_decode hpow n hn
    obtain rfl : s = t := Except.ok.inj (hs.symm.trans (heq.trans ht))
    exact hread.symm.trans hread'
  encode s hnil hs hlength hlast := base62ToInt_encode hpow s hs hlength hnil hlast

theorem base62_roundTrips_sample :
    (∀ i ≤ 10, (Int64.ofNat (62 ^ i)).toInt = 62 ^ i) ∧ RoundTrips fun i => Int64.ofNat (62 ^ i) := by
  have hpow : ∀ i ≤ 10, (Int64.ofNat (62 ^ i)).toInt = 62 ^ i := by decide
  exact ⟨hpow, base62_roundTrips (fun i => Int64.ofNat (62 ^ i)) hpow⟩

end Vmqant.Mqanttools
