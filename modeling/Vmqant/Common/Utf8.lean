import Mathlib

/-!
# The characters of a byte string

A byte string need not be valid UTF-8: a byte that begins no character is read as the replacement
character, on its own.
-/

namespace Utf8

/-- A byte that continues a character. -/
def Tail (b : UInt8) : Prop := 0x80 ≤ b ∧ b ≤ 0xBF

instance (b : UInt8) : Decidable (Tail b) := inferInstanceAs (Decidable (_ ∧ _))

/-- The bytes of one character. -/
def Rune : List UInt8 → Prop
  | [a] => a < 0x80
  | [a, b] => 0xC2 ≤ a ∧ a ≤ 0xDF ∧ Tail b
  | [a, b, c] =>
    0xE0 ≤ a ∧ a ≤ 0xEF ∧ Tail b ∧ Tail c ∧ (a = 0xE0 → 0xA0 ≤ b) ∧ (a = 0xED → b ≤ 0x9F)
  | [a, b, c, d] =>
    0xF0 ≤ a ∧ a ≤ 0xF4 ∧ Tail b ∧ Tail c ∧ Tail d ∧ (a = 0xF0 → 0x90 ≤ b) ∧ (a = 0xF4 → b ≤ 0x8F)
  | _ => False

instance : DecidablePred Rune := fun
  | [] => .isFalse id
  | [_] => inferInstanceAs (Decidable (_ < _))
  | [_, _] => inferInstanceAs (Decidable (_ ∧ _))
  | [_, _, _] => inferInstanceAs (Decidable (_ ∧ _))
  | [_, _, _, _] => inferInstanceAs (Decidable (_ ∧ _))
  | _ :: _ :: _ :: _ :: _ :: _ => .isFalse id

/-- The replacement character. -/
def replacement : List UInt8 := [0xEF, 0xBF, 0xBD]

/-- The length of the first character, if there is one. -/
def runeLength (s : List UInt8) : Option ℕ := [1, 2, 3, 4].find? fun n => Rune (s.take n)

/-- The first character of a text, and the text after it. -/
def decodeRune (s : List UInt8) : List UInt8 × List UInt8 :=
  match runeLength s with
  | some n => (s.take n, s.drop n)
  | none => (replacement, s.tail)

/-- A byte of ASCII is a character of its own. -/
theorem Rune.eq_singleton {l : List UInt8} {c : UInt8} (h : Rune l) (hc : c < 0x80) (hmem : c ∈ l) :
    l = [c] := by
  have htail : ∀ b, Tail b → c ≠ b := by
    rintro b hb rfl
    exact absurd hc (UInt8.not_lt.mpr hb.1)
  have hlead : ∀ a b : UInt8, 0x80 ≤ b → b ≤ a → c ≠ a := by
    rintro a b hb hba rfl
    exact absurd hc (UInt8.not_lt.mpr (UInt8.le_trans hb hba))
  match l, h with
  | [a], _ => rw [List.mem_singleton.mp hmem]
  | [a, b], h =>
    obtain ⟨ha, -, hb⟩ := h
    simp [hlead a _ (by decide) ha, htail b hb] at hmem
  | [a, b, d], h =>
    obtain ⟨ha, -, hb, hd, -, -⟩ := h
    simp [hlead a _ (by decide) ha, htail b hb, htail d hd] at hmem
  | [a, b, d, e], h =>
    obtain ⟨ha, -, hb, hd, he, -, -⟩ := h
    simp [hlead a _ (by decide) ha, htail b hb, htail d hd, htail e he] at hmem

theorem rune_of_runeLength {s : List UInt8} {n : ℕ} (h : runeLength s = some n) :
    Rune (s.take n) ∧ 0 < n := by
  unfold runeLength at h
  have hmem : n ∈ [1, 2, 3, 4] := List.mem_of_find?_eq_some h
  have hrune := List.find?_some h
  refine ⟨of_decide_eq_true hrune, ?_⟩
  simp at hmem
  omega

theorem decodeRune_cons {a : UInt8} (ha : a < 0x80) (s : List UInt8) : decodeRune (a :: s) = ([a], s) := by
  have hlength : runeLength (a :: s) = some 1 := List.find?_cons_of_pos (decide_eq_true ha)
  unfold decodeRune
  rw [hlength]
  rfl

/-- A character that starts with another byte has no byte of ASCII, also when it is replaced. -/
theorem not_mem_decodeRune {a c : UInt8} (ha : ¬ a < 0x80) (hc : c < 0x80) (s : List UInt8) :
    c ∉ (decodeRune (a :: s)).1 := by
  intro hmem
  unfold decodeRune at hmem
  split at hmem
  · next n hlength =>
    obtain ⟨hrune, hn⟩ := rune_of_runeLength hlength
    have hone := hrune.eq_singleton hc hmem
    obtain ⟨m, rfl⟩ : ∃ m, n = m + 1 := ⟨n - 1, by omega⟩
    rw [List.take_succ_cons] at hone
    exact ha ((List.cons.inj hone).1 ▸ hc)
  · simp only [replacement, List.mem_cons, List.not_mem_nil, or_false] at hmem
    rcases hmem with rfl | rfl | rfl <;> exact absurd hc (by decide)

/-- The text that is left is a part of the text, and it is shorter. -/
theorem decodeRune_suffix (a : UInt8) (s : List UInt8) :
    (decodeRune (a :: s)).2 <:+ s := by
  unfold decodeRune
  split
  · next n hlength =>
    obtain ⟨m, rfl⟩ : ∃ m, n = m + 1 := ⟨n - 1, by have := (rune_of_runeLength hlength).2; omega⟩
    exact List.drop_suffix m s
  · exact List.suffix_refl s

/-- A byte of ASCII is not in a character that starts with another byte. -/
theorem mem_decodeRune_snd {a c : UInt8} (ha : ¬ a < 0x80) (hc : c < 0x80) (s : List UInt8) :
    c ∈ (decodeRune (a :: s)).2 ↔ c ∈ a :: s := by
  have hmem := not_mem_decodeRune ha hc s
  unfold decodeRune at hmem ⊢
  split at hmem
  · next n hlength =>
    have hsplit : c ∈ a :: s ↔ c ∈ (a :: s).take n ∨ c ∈ (a :: s).drop n := by
      rw [← List.mem_append, List.take_append_drop]
    rw [hsplit]
    exact ⟨.inr, fun h => h.resolve_left hmem⟩
  · have hne : c ≠ a := by
      rintro rfl
      exact ha hc
    rw [List.mem_cons]
    exact ⟨.inr, fun h => h.resolve_left hne⟩

/-! ## White space -/

/-- The characters of white space: those of ASCII, and U+0085, U+00A0, U+1680, U+2000 to U+200A, U+2028, U+2029,
U+202F, U+205F and U+3000. -/
def spaces : List (List UInt8) :=
  [[0x09], [0x0A], [0x0B], [0x0C], [0x0D], [0x20], [0xC2, 0x85], [0xC2, 0xA0], [0xE1, 0x9A, 0x80]]
    ++ (List.range 11).map (fun i => [0xE2, 0x80, UInt8.ofNat (0x80 + i)])
    ++ [[0xE2, 0x80, 0xA8], [0xE2, 0x80, 0xA9], [0xE2, 0x80, 0xAF], [0xE2, 0x81, 0x9F], [0xE3, 0x80, 0x80]]

/-- The text without the words that it starts with, at most `n` of them. -/
def trimPrefixes (words : List (List UInt8)) : ℕ → List UInt8 → List UInt8
  | 0, s => s
  | n + 1, s =>
    match words.find? (· <+: s) with
    | some w => trimPrefixes words n (s.drop w.length)
    | none => s

/-- `strings.TrimSpace`. The end of a text is trimmed as the start of the reversed one. -/
def trimSpace (s : List UInt8) : List UInt8 :=
  let s := trimPrefixes spaces s.length s
  (trimPrefixes (spaces.map List.reverse) s.length s.reverse).reverse

theorem trimPrefixes_eq_self {words : List (List UInt8)} {s : List UInt8} (h : ∀ w ∈ words, ¬ w <+: s)
    (n : ℕ) : trimPrefixes words n s = s := by
  cases n with
  | zero => rfl
  | succ n =>
    have hfind : words.find? (· <+: s) = none := by
      rw [List.find?_eq_none]
      intro w hw hstarts
      exact h w hw (of_decide_eq_true hstarts)
    rw [trimPrefixes, hfind]

theorem trimSpace_eq_self {s : List UInt8} (h : ∀ w ∈ spaces, ∀ c ∈ w, c ∉ s) : trimSpace s = s := by
  have hnil : ∀ w ∈ spaces, w ≠ [] := by decide
  have hstarts : ∀ w ∈ spaces, ∀ t u, (∀ c, c ∈ t ↔ c ∈ w) → (∀ c, c ∈ u ↔ c ∈ s) → ¬ t <+: u := by
    intro w hw t u ht hu htu
    obtain ⟨c, hc⟩ := List.exists_mem_of_ne_nil w (hnil w hw)
    exact h w hw c hc ((hu c).mp (htu.subset ((ht c).mpr hc)))
  have hleft : trimPrefixes spaces s.length s = s :=
    trimPrefixes_eq_self (fun w hw => hstarts w hw _ _ (fun _ => Iff.rfl) (fun _ => Iff.rfl)) _
  have hright : trimPrefixes (spaces.map List.reverse) s.length s.reverse = s.reverse := by
    refine trimPrefixes_eq_self (fun w hw => ?_) _
    obtain ⟨v, hv, rfl⟩ := List.mem_map.mp hw
    exact hstarts v hv _ _ (fun _ => List.mem_reverse) (fun _ => List.mem_reverse)
  unfold trimSpace
  dsimp only
  rw [hleft, hright, List.reverse_reverse]

end Utf8
