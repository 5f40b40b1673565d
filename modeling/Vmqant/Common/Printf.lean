import Vmqant.Common.Utf8

/-!
# Formatting without operands

What `fmt.Sprintf` and `fmt.Errorf` make of a format when they get no operands. A text without `%` is
itself. Every directive but `%%` is reported as an error inside the text, and `doPrintf_eq_self_iff` says
that no text with a `%` comes out as it was.
-/

namespace Printf

def ascii (s : String) : List UInt8 := s.toList.map Char.toUInt8

def noVerb : List UInt8 := ascii "%!(NOVERB)"
def badWidth : List UInt8 := ascii "%!(BADWIDTH)"
def badPrec : List UInt8 := ascii "%!(BADPREC)"
def badIndex : List UInt8 := ascii "(BADINDEX)"
def missing : List UInt8 := ascii "(MISSING)"

/-! ## A directive -/

/-- The characters of the flags. -/
def flags : List UInt8 := ascii "#0+- "

/-- `parsenum` from a number on: whether there is one, and the text after it. A number that is too large
takes the whole text. -/
def parsenumFrom (num : ℕ) (isnum : Bool) : List UInt8 → Bool × List UInt8
  | [] => (isnum, [])
  | c :: s =>
    if '0'.toUInt8 ≤ c ∧ c ≤ '9'.toUInt8 then
      if num > 1000000 then (false, []) else parsenumFrom (num * 10 + (c - '0'.toUInt8).toNat) true s
    else (isnum, c :: s)

def parsenum (s : List UInt8) : Bool × List UInt8 := parsenumFrom 0 false s

/-- `parseArgNumber` after the opening bracket: whether it is an index, and the text after it. -/
def parseArgNumber (s : List UInt8) : Bool × List UInt8 :=
  if s.length < 2 ∨ ']'.toUInt8 ∉ s then (false, s)
  else
    let inner := s.takeWhile (· ≠ ']'.toUInt8)
    (parsenum inner = (true, []), s.drop (inner.length + 1))

/-- A directive that is being read. -/
structure Reading where
  goodArgNum : Bool := true
  /-- An index was read just before. -/
  afterIndex : Bool := false
  /-- What was written. -/
  out : List UInt8 := []
  rest : List UInt8

namespace Reading

/-- `argNumber`; no operand has the index. -/
def argNumber (r : Reading) : Reading :=
  match r.rest with
  | c :: s =>
    if c = '['.toUInt8 then
      let (ok, rest) := parseArgNumber s
      { r with goodArgNum := false, afterIndex := ok, rest }
    else { r with afterIndex := false }
  | [] => { r with afterIndex := false }

/-- A number, where the width or the precision stands. -/
def num (r : Reading) (bad : Bool → Bool) : Reading :=
  let (isnum, rest) := parsenum r.rest
  { r with goodArgNum := r.goodArgNum && !bad isnum, rest }

/-- A star, for which there is no operand. -/
def star (r : Reading) (text s : List UInt8) : Reading :=
  { r with afterIndex := false, out := r.out ++ text, rest := s }

def width (r : Reading) : Reading :=
  match r.rest with
  | c :: s => if c = '*'.toUInt8 then r.star badWidth s else r.num (r.afterIndex && ·)
  | [] => r

def precision (r : Reading) : Reading :=
  match r.rest with
  | c :: s =>
    if c = '.'.toUInt8 then
      let r := argNumber { r with goodArgNum := r.goodArgNum && !r.afterIndex, rest := s }
      match r.rest with
      | c :: s => if c = '*'.toUInt8 then r.star badPrec s else r.num fun _ => false
      | [] => r
    else r
  | [] => r

/-- The verb: the text that the directive writes, and the text after it. -/
def verb (r : Reading) : List UInt8 × List UInt8 :=
  match r.rest with
  | [] => (r.out ++ noVerb, [])
  | c :: s =>
    let (verb, rest) := Utf8.decodeRune (c :: s)
    if c = '%'.toUInt8 then (r.out ++ [c], rest)
    else (r.out ++ ascii "%!" ++ verb ++ (if r.goodArgNum then missing else badIndex), rest)

end Reading

/-- A directive after its `%`. -/
def directive (s : List UInt8) : List UInt8 × List UInt8 :=
  let r : Reading := { rest := s.dropWhile (· ∈ flags) }
  let r := r.argNumber.width.precision
  let r := if r.afterIndex then r else r.argNumber
  r.verb

/-! ### The text that is left -/

theorem parsenumFrom_suffix (num : ℕ) (isnum : Bool) (s : List UInt8) :
    (parsenumFrom num isnum s).2 <:+ s := by
  induction s generalizing num isnum with
  | nil => exact List.suffix_refl _
  | cons c s ih =>
    unfold parsenumFrom
    split
    · split
      · exact List.nil_suffix
      · exact (ih _ _).trans (List.suffix_cons c s)
    · exact List.suffix_refl _

theorem parseArgNumber_suffix (s : List UInt8) : (parseArgNumber s).2 <:+ s := by
  unfold parseArgNumber
  split
  · exact List.suffix_refl s
  · exact List.drop_suffix _ s

namespace Reading

theorem argNumber_suffix (r : Reading) : r.argNumber.rest <:+ r.rest := by
  unfold argNumber
  split
  · next c s hrest =>
    rw [hrest]
    split
    · exact (parseArgNumber_suffix s).trans (List.suffix_cons c s)
    · exact hrest ▸ List.suffix_refl _
  · exact List.suffix_refl _

theorem num_suffix (r : Reading) (bad : Bool → Bool) : (r.num bad).rest <:+ r.rest :=
  parsenumFrom_suffix 0 false r.rest

theorem width_suffix (r : Reading) : r.width.rest <:+ r.rest := by
  unfold width
  split
  · next c s hrest =>
    split
    · rw [hrest]
      exact List.suffix_cons c s
    · exact r.num_suffix _
  · exact List.suffix_refl _

theorem precision_suffix (r : Reading) : r.precision.rest <:+ r.rest := by
  unfold precision
  split
  · next c s hrest =>
    rw [hrest]
    split
    · refine List.IsSuffix.trans ?_ (List.suffix_cons c s)
      have hindex := argNumber_suffix { r with goodArgNum := r.goodArgNum && !r.afterIndex, rest := s }
      dsimp only
      split
      · next c' s' hrest' =>
        rw [hrest'] at hindex
        split
        · exact (List.suffix_cons c' s').trans hindex
        · refine (num_suffix _ _).trans ?_
          rw [hrest']
          exact hindex
      · exact hindex
    · rw [hrest]
  · exact List.suffix_refl _

/-! ### The text that is written -/

theorem argNumber_out (r : Reading) : r.argNumber.out = r.out := by
  unfold argNumber
  split
  · split <;> rfl
  · rfl

theorem width_out (r : Reading) : r.width.out = r.out ∨ r.width.out = r.out ++ badWidth := by
  unfold width
  split
  · split
    · exact .inr rfl
    · exact .inl rfl
  · exact .inl rfl

theorem precision_out (r : Reading) : r.precision.out = r.out ∨ r.precision.out = r.out ++ badPrec := by
  unfold precision
  split
  · next c s hrest =>
    split
    · have hindex := argNumber_out { r with goodArgNum := r.goodArgNum && !r.afterIndex, rest := s }
      dsimp only
      split
      · split
        · exact .inr (congrArg (· ++ badPrec) hindex)
        · exact .inl hindex
      · exact .inl hindex
    · exact .inl rfl
  · exact .inl rfl

end Reading

/-- What a directive writes before its verb. -/
def notes : List (List UInt8) := [[], badWidth, badPrec, badWidth ++ badPrec]

/-- What a directive writes, and what it leaves. -/
structure Outcome (s text rest : List UInt8) : Prop where
  suffix : rest <:+ s
  cases : ∃ note ∈ notes, text = note ++ noVerb ∨
    (text = note ++ ['%'.toUInt8] ∧ '%'.toUInt8 :: rest <:+ s) ∨
    ∃ verb err, '%'.toUInt8 ∉ verb ∧ err ∈ [missing, badIndex] ∧
      text = note ++ (ascii "%!" ++ (verb ++ err))

theorem Reading.verb_outcome {r : Reading} {s : List UInt8} (hrest : r.rest <:+ s) (hout : r.out ∈ notes) :
    Outcome s r.verb.1 r.verb.2 := by
  unfold Reading.verb
  split
  · exact ⟨List.nil_suffix, r.out, hout, .inl rfl⟩
  · next c s' hs' =>
    rw [hs'] at hrest
    have hsuffix : (Utf8.decodeRune (c :: s')).2 <:+ s :=
      ((Utf8.decodeRune_suffix c s').trans (List.suffix_cons c s')).trans hrest
    dsimp only
    split
    · next hc =>
      subst hc
      have hdecode : Utf8.decodeRune ('%'.toUInt8 :: s') = (['%'.toUInt8], s') :=
        Utf8.decodeRune_cons (by decide) s'
      refine ⟨hsuffix, r.out, hout, .inr (.inl ⟨rfl, ?_⟩)⟩
      rw [hdecode]
      exact hrest
    · next hc =>
      refine ⟨hsuffix, r.out, hout, .inr (.inr ⟨(Utf8.decodeRune (c :: s')).1,
        if r.goodArgNum then missing else badIndex, ?_, ?_, ?_⟩)⟩
      · by_cases hascii : c < 0x80
        · rw [Utf8.decodeRune_cons hascii]
          exact fun hmem => hc (List.mem_singleton.mp hmem).symm
        · exact Utf8.not_mem_decodeRune hascii (by decide) s'
      · split
        · exact List.mem_cons_self
        · exact List.mem_cons_of_mem _ List.mem_cons_self
      · dsimp only
        rw [List.append_assoc, List.append_assoc]

theorem directive_outcome (s : List UInt8) : Outcome s (directive s).1 (directive s).2 := by
  let r0 : Reading := { rest := s.dropWhile (· ∈ flags) }
  have hflags : r0.rest <:+ s := List.dropWhile_suffix _
  have hwidth : r0.argNumber.width.rest <:+ s :=
    ((Reading.width_suffix _).trans (Reading.argNumber_suffix _)).trans hflags
  have hrest : r0.argNumber.width.precision.rest <:+ s := (Reading.precision_suffix _).trans hwidth
  have hout : r0.argNumber.width.precision.out ∈ notes := by
    have hstart : r0.argNumber.out = [] := Reading.argNumber_out r0
    rcases Reading.width_out r0.argNumber with h | h <;>
      rcases Reading.precision_out r0.argNumber.width with h' | h' <;>
      rw [h', h, hstart] <;> decide
  change Outcome s (Reading.verb (if _ then _ else _)).1 (Reading.verb (if _ then _ else _)).2
  split
  · exact Reading.verb_outcome hrest hout
  · exact Reading.verb_outcome ((Reading.argNumber_suffix _).trans hrest)
      ((Reading.argNumber_out _).symm ▸ hout)

/-! ## A format -/

/-- `doPrintf` without operands. -/
def doPrintf : List UInt8 → List UInt8
  | [] => []
  | c :: s =>
    if c ≠ '%'.toUInt8 then c :: doPrintf s
    else (directive s).1 ++ doPrintf (directive s).2
termination_by s => s.length
decreasing_by
  · exact Nat.lt_succ_self _
  · exact Nat.lt_succ_of_le (directive_outcome s).suffix.length_le

theorem doPrintf_percent (s : List UInt8) :
    doPrintf ('%'.toUInt8 :: s) = (directive s).1 ++ doPrintf (directive s).2 := by
  rw [doPrintf, if_neg (not_not_intro rfl)]

theorem doPrintf_append {a : List UInt8} (ha : '%'.toUInt8 ∉ a) (s : List UInt8) :
    doPrintf (a ++ s) = a ++ doPrintf s := by
  induction a with
  | nil => rfl
  | cons c a ih =>
    obtain ⟨hc, ha⟩ := List.ne_and_not_mem_of_not_mem_cons ha
    rw [List.cons_append, doPrintf, if_pos hc.symm, ih ha]
    rfl

theorem doPrintf_of_not_mem {s : List UInt8} (hs : '%'.toUInt8 ∉ s) : doPrintf s = s := by
  have h := doPrintf_append hs []
  rwa [List.append_nil, doPrintf, List.append_nil] at h

/-! ## Texts that come out as they were -/

/-- Each `%` but the last character is followed by `!`. -/
def banged : List UInt8 → Bool
  | c :: d :: l => (c ≠ '%'.toUInt8 || d = '!'.toUInt8) && banged (d :: l)
  | _ => true

theorem banged_of_not_mem {l : List UInt8} (h : '%'.toUInt8 ∉ l) : banged l = true := by
  induction l with
  | nil => rfl
  | cons c l ih =>
    obtain ⟨hc, hl⟩ := List.ne_and_not_mem_of_not_mem_cons h
    cases l with
    | nil => rfl
    | cons d l =>
      rw [banged, ih hl, decide_eq_true hc.symm]
      rfl

theorem banged_append_cons {u t : List UInt8} {d : UInt8} (h : banged (u ++ '%'.toUInt8 :: d :: t) = true) :
    d = '!'.toUInt8 := by
  induction u with
  | nil =>
    rw [List.nil_append, banged, Bool.and_eq_true, Bool.or_eq_true] at h
    exact h.1.elim (fun hne => absurd rfl (of_decide_eq_true hne)) of_decide_eq_true
  | cons c u ih =>
    cases u with
    | nil =>
      rw [List.cons_append, List.nil_append, banged, Bool.and_eq_true] at h
      exact ih h.2
    | cons c' u =>
      rw [List.cons_append, List.cons_append, banged, Bool.and_eq_true] at h
      exact ih h.2

theorem banged_note {note : List UInt8} (h : note ∈ notes) (y : List UInt8) :
    banged (note ++ y) = banged y := by
  have hnote : note = [] ∨ note = badWidth ∨ note = badPrec ∨ note = badWidth ++ badPrec := by
    simpa [notes] using h
  rcases hnote with rfl | rfl | rfl | rfl <;> cases y <;> rfl

namespace Outcome

variable {s text rest : List UInt8}

theorem banged (h : Outcome s text rest) : Printf.banged text = true := by
  obtain ⟨note, hnote, rfl | ⟨rfl, -⟩ | ⟨verb, err, hverb, herr, rfl⟩⟩ := h.cases <;> rw [banged_note hnote]
  · rfl
  · rfl
  · have herr' : '%'.toUInt8 ∉ err := by
      rcases List.mem_pair.mp herr with rfl | rfl <;> decide
    have hrest : '%'.toUInt8 ∉ '!'.toUInt8 :: (verb ++ err) :=
      List.not_mem_cons_of_ne_of_not_mem (by decide) (List.not_mem_append hverb herr')
    have htext : Printf.banged (ascii "%!" ++ (verb ++ err))
        = Printf.banged ('!'.toUInt8 :: (verb ++ err)) := rfl
    rw [htext]
    exact banged_of_not_mem hrest

/-- A text that ends with `%` is that of `%%`. -/
theorem suffix_of_last (h : Outcome s text rest) {u : List UInt8} (hu : text = u ++ ['%'.toUInt8]) :
    '%'.toUInt8 :: rest <:+ s := by
  have hnot : ∀ v, text ≠ v ++ [')'.toUInt8] := by
    intro v hv
    have hlast := (List.append_inj' (hu.symm.trans hv) rfl).2
    exact absurd hlast (by decide)
  obtain ⟨note, hnote, htext | ⟨-, hs⟩ | ⟨verb, err, -, herr, htext⟩⟩ := h.cases
  · exact absurd (htext.trans (List.append_assoc note (ascii "%!(NOVERB") [')'.toUInt8]).symm) (hnot _)
  · exact hs
  · obtain ⟨err', rfl⟩ : ∃ err', err = err' ++ [')'.toUInt8] := by
      rcases List.mem_pair.mp herr with rfl | rfl
      · exact ⟨ascii "(MISSING", rfl⟩
      · exact ⟨ascii "(BADINDEX", rfl⟩
    refine absurd htext ?_
    rw [← List.append_assoc, ← List.append_assoc, ← List.append_assoc]
    exact hnot _

/-- The text starts with `%`, and goes on with `!` if it goes on. -/
theorem starts (h : Outcome s text rest) :
    ∃ text', text = '%'.toUInt8 :: text' ∧ ∀ d t, text' = d :: t → d = '!'.toUInt8 := by
  have hstart : ∃ text', text = '%'.toUInt8 :: text' := by
    obtain ⟨note, hnote, htext⟩ := h.cases
    have hnote' : note = [] ∨ note = badWidth ∨ note = badPrec ∨ note = badWidth ++ badPrec := by
      simpa [notes] using hnote
    rcases hnote' with rfl | rfl | rfl | rfl <;>
      obtain rfl | ⟨rfl, -⟩ | ⟨verb, err, -, -, rfl⟩ := htext <;> exact ⟨_, rfl⟩
  obtain ⟨text', rfl⟩ := hstart
  refine ⟨text', rfl, ?_⟩
  rintro d t rfl
  exact banged_append_cons (u := []) h.banged

end Outcome

/-- The verb `!`. -/
theorem directive_bang (s : List UInt8) :
    directive ('!'.toUInt8 :: s) = (ascii "%!!(MISSING)", s) := by
  rfl

theorem append_cons_inj {α : Type} {c : α} {a a' x x' : List α} (ha : c ∉ a) (ha' : c ∉ a')
    (h : a ++ c :: x = a' ++ c :: x') : a = a' ∧ x = x' := by
  induction a generalizing a' with
  | nil =>
    cases a' with
    | nil => exact ⟨rfl, (List.cons.inj h).2⟩
    | cons d a' => exact absurd ((List.cons.inj h).1 ▸ List.mem_cons_self) ha'
  | cons b a ih =>
    cases a' with
    | nil => exact absurd ((List.cons.inj h).1 ▸ List.mem_cons_self) ha
    | cons d a' =>
      obtain ⟨rfl, htail⟩ := List.cons.inj h
      obtain ⟨rfl, hx⟩ := ih (fun hc => ha (List.mem_cons_of_mem _ hc))
        (fun hc => ha' (List.mem_cons_of_mem _ hc)) htail
      exact ⟨rfl, hx⟩

/-- No text comes out with a text put before it that has a `%`. -/
theorem doPrintf_ne_append (y w : List UInt8) (hw : '%'.toUInt8 ∈ w) : doPrintf y ≠ w ++ y := by
  induction hn : y.length using Nat.strong_induction_on generalizing y w with
  | _ n ih =>
  intro h
  by_cases hy : '%'.toUInt8 ∈ y
  · obtain ⟨a, s, rfl, ha⟩ := List.eq_append_cons_of_mem hy
    obtain ⟨a', w', rfl, ha'⟩ := List.eq_append_cons_of_mem hw
    have houtcome := directive_outcome s
    obtain ⟨text, htext, -⟩ := houtcome.starts
    obtain ⟨δ, hδ⟩ := houtcome.suffix
    have hshort : (directive s).2.length < n := by
      have hle := houtcome.suffix.length_le
      rw [List.length_append, List.length_cons] at hn
      omega
    rw [doPrintf_append ha, doPrintf_percent, htext, List.cons_append, List.append_assoc,
      List.cons_append] at h
    obtain ⟨rfl, hrest⟩ := append_cons_inj ha ha' h
    rw [← List.append_assoc] at hrest
    -- the first directive and the first text are gone: where does the `%` of `y` stand?
    rcases List.append_eq_append_iff.mp hrest with ⟨t, hW, hr⟩ | ⟨t, htext', hr⟩
    · refine ih _ hshort (directive s).2 (t ++ '%'.toUInt8 :: δ) ?_ rfl ?_
      · exact List.mem_append_right _ List.mem_cons_self
      · rw [hr, List.append_assoc, List.cons_append, hδ]
    · cases t with
      | nil =>
        refine ih _ hshort (directive s).2 ('%'.toUInt8 :: δ) List.mem_cons_self rfl ?_
        rw [List.cons_append, hδ]
        exact hr.symm
      | cons c t =>
        obtain ⟨rfl, hs⟩ := List.cons.inj hr
        have hall : (directive s).1 = ('%'.toUInt8 :: (w' ++ a)) ++ '%'.toUInt8 :: t := by
          rw [htext, htext', List.cons_append]
        cases t with
        | nil =>
          obtain ⟨δ', hδ'⟩ := houtcome.suffix_of_last hall
          refine ih _ hshort (directive s).2 (δ' ++ ['%'.toUInt8]) ?_ rfl ?_
          · exact List.mem_append_right _ List.mem_cons_self
          · rw [List.append_assoc, List.singleton_append, hδ']
            exact hs.symm
        | cons d t =>
          have hbanged := houtcome.banged
          rw [hall] at hbanged
          obtain rfl := banged_append_cons hbanged
          -- the directive is that of `!`, whose text has one `%` only
          obtain ⟨s', rfl⟩ : ∃ s', s = '!'.toUInt8 :: s' := ⟨_, hs⟩
          rw [directive_bang] at hall
          have htail : (ascii "%!!(MISSING)").tail = w' ++ a ++ '%'.toUInt8 :: '!'.toUInt8 :: t :=
            congrArg List.tail hall
          have hmem : '%'.toUInt8 ∈ (ascii "%!!(MISSING)").tail := by
            rw [htail]
            exact List.mem_append_right _ List.mem_cons_self
          exact absurd hmem (by decide)
  · rw [doPrintf_of_not_mem hy] at h
    have hnil : w = [] := List.self_eq_append_left.mp h
    rw [hnil] at hw
    exact absurd hw List.not_mem_nil

/-- `(MISSING)` at the end of a directive does not hide in the text after it. -/
theorem doPrintf_ne_missing (s : List UInt8) : s ≠ ascii "!(MISSING)" ++ doPrintf s := by
  induction hn : s.length using Nat.strong_induction_on generalizing s with
  | _ n ih =>
  intro h
  obtain ⟨s', hs'⟩ : ∃ s', s = ascii "!(MISSING)" ++ s' := ⟨_, h⟩
  have hnot : '%'.toUInt8 ∉ ascii "!(MISSING)" := by decide
  rw [hs', doPrintf_append hnot] at h
  refine ih s'.length ?_ s' rfl (List.append_cancel_left h)
  rw [← hn, hs', List.length_append]
  exact Nat.lt_add_of_pos_left (by decide)

/-- **No text with a `%` comes out as it was.** -/
theorem doPrintf_eq_self_iff (e : List UInt8) : doPrintf e = e ↔ '%'.toUInt8 ∉ e := by
  refine ⟨fun h hmem => ?_, doPrintf_of_not_mem⟩
  obtain ⟨a, s, rfl, ha⟩ := List.eq_append_cons_of_mem hmem
  have houtcome := directive_outcome s
  obtain ⟨text, htext, hbang⟩ := houtcome.starts
  rw [doPrintf_append ha, doPrintf_percent, htext, List.cons_append] at h
  have hs : text ++ doPrintf (directive s).2 = s := (List.cons.inj (List.append_cancel_left h)).2
  cases text with
  | nil =>
    obtain ⟨δ, hδ⟩ := houtcome.suffix_of_last (u := []) htext
    refine doPrintf_ne_append (directive s).2 (δ ++ ['%'.toUInt8]) ?_ ?_
    · exact List.mem_append_right _ List.mem_cons_self
    · rw [List.append_assoc, List.singleton_append, hδ]
      exact hs
  | cons d t =>
    obtain rfl := hbang d t rfl
    obtain ⟨s', rfl⟩ : ∃ s', s = '!'.toUInt8 :: s' := ⟨_, hs.symm⟩
    rw [directive_bang] at htext hs
    have ht : t = ascii "!(MISSING)" := (List.cons.inj (List.cons.inj htext).2).2.symm
    subst ht
    exact doPrintf_ne_missing s' (List.cons.inj hs).2.symm

end Printf
