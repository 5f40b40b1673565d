import Vmqant.Common.Printf
import Vmqant.Common.Replace

/-!
# Templates

Reference: `utils/minifmt.go`.

`Sprintf` finds the placeholders in the format, and replaces each of them by its value where it occurs first
in what it has so far. That is another place than its own if the text was put together by an earlier value.
Bytes with their origin tell the two apart.
-/

namespace Vmqant.Mqanttools

open Printf (ascii)

/-! ## The function -/

/-- `\w`. -/
def WordByte (c : UInt8) : Prop :=
  ('0'.toUInt8 ≤ c ∧ c ≤ '9'.toUInt8) ∨ ('A'.toUInt8 ≤ c ∧ c ≤ 'Z'.toUInt8) ∨
    ('a'.toUInt8 ≤ c ∧ c ≤ 'z'.toUInt8) ∨ c = '_'.toUInt8

instance : DecidablePred WordByte := fun _ => inferInstanceAs (Decidable (_ ∨ _))

/-- The placeholder of a word. -/
def braced (word : List UInt8) : List UInt8 := '{'.toUInt8 :: (word ++ ['}'.toUInt8])

/-- `regFields` at the start of a text: the word of the placeholder that stands there. -/
def fieldWord (s : List UInt8) : Option (List UInt8) :=
  let word := s.tail.takeWhile (WordByte ·)
  if s.head? = some '{'.toUInt8 ∧ word ≠ [] ∧ (s.tail.dropWhile (WordByte ·)).head? = some '}'.toUInt8 then
    some word
  else none

/-- `regFields.FindAllString`; the first argument counts the bytes that belong to the last match. -/
def findAllString : ℕ → List UInt8 → List (List UInt8)
  | _, [] => []
  | skip + 1, _ :: s => findAllString skip s
  | 0, c :: s =>
    match fieldWord (c :: s) with
    | some word => braced word :: findAllString (word.length + 1) s
    | none => findAllString 0 s

/-- `regField.ReplaceAllString` with nothing. -/
def strip (fieldName : List UInt8) : List UInt8 :=
  fieldName.filter fun c => c ≠ '{'.toUInt8 ∧ c ≠ '}'.toUInt8

/-- `Sprintf`; `extra` has the values as `fmt.Sprintf("%v", v)` prints them. -/
def sprintf (format : List UInt8) (extra : List UInt8 → Option (List UInt8)) : List UInt8 :=
  (findAllString 0 format).foldl
    (fun ret fieldName =>
      match extra (strip fieldName) with
      | none => ret
      | some v => Replace.once id fieldName v ret)
    format

/-! ## What it is for -/

/-- A byte of a format, or a placeholder. -/
inductive Piece where
  | byte (c : UInt8)
  | field (word : List UInt8)
deriving DecidableEq

/-- The pieces of a format, after the bytes that belong to the last placeholder. -/
def pieces : ℕ → List UInt8 → List Piece
  | _, [] => []
  | skip + 1, _ :: s => pieces skip s
  | 0, c :: s =>
    match fieldWord (c :: s) with
    | some word => .field word :: pieces (word.length + 1) s
    | none => .byte c :: pieces 0 s

/-- What the template stands for: each placeholder with a value is replaced by it. -/
def substitute (extra : List UInt8 → Option (List UInt8)) (ps : List Piece) : List UInt8 :=
  ps.flatMap fun
    | .byte c => [c]
    | .field word => (extra word).getD (braced word)

/-! ## Bytes with their origin -/

/-- A byte comes from a place of the format, or from a place of the value of the `k`-th placeholder. -/
inductive Origin where
  | format (i : ℕ)
  | value (k i : ℕ)
deriving DecidableEq

abbrev Marked := UInt8 × Origin

/-- A part of the format, from the place `i` on. -/
def markFormat (i : ℕ) (s : List UInt8) : List Marked := (s.zipIdx i).map fun (c, j) => (c, .format j)

def markValue (k : ℕ) (v : List UInt8) : List Marked := v.zipIdx.map fun (c, j) => (c, .value k j)

/-- The loop of `Sprintf` on marked bytes, from the `k`-th placeholder on. -/
def markedLoop (extra : List UInt8 → Option (List UInt8)) : ℕ → List (List UInt8) → List Marked → List Marked
  | _, [], ret => ret
  | k, fieldName :: fields, ret =>
    markedLoop extra (k + 1) fields
      (match extra (strip fieldName) with
      | none => ret
      | some v => Replace.once Prod.fst fieldName (markValue k v) ret)

def markedSprintf (format : List UInt8) (extra : List UInt8 → Option (List UInt8)) : List Marked :=
  markedLoop extra 0 (findAllString 0 format) (markFormat 0 format)

/-- The substitution on marked bytes, from the place `i` and the `k`-th placeholder on. -/
def markedSubstitute (extra : List UInt8 → Option (List UInt8)) : ℕ → ℕ → List Piece → List Marked
  | _, _, [] => []
  | i, k, .byte c :: ps => (c, .format i) :: markedSubstitute extra (i + 1) k ps
  | i, k, .field word :: ps =>
    (match extra word with
    | some v => markValue k v
    | none => markFormat i (braced word)) ++
      markedSubstitute extra (i + (braced word).length) (k + 1) ps

/-- `Sprintf` returns the substitution, and each byte of it is the one that stands there: nothing that was
inserted is substituted, and nothing else of the format is. -/
structure Simultaneous (format : List UInt8) (extra : List UInt8 → Option (List UInt8)) : Prop where
  result : sprintf format extra = substitute extra (pieces 0 format)
  origin : markedSprintf format extra = markedSubstitute extra 0 0 (pieces 0 format)

/-! ## Placeholders -/

theorem fieldWord_eq_some {s word : List UInt8} (h : fieldWord s = some word) :
    (∀ c ∈ word, WordByte c) ∧ ∃ rest, s = braced word ++ rest := by
  unfold fieldWord at h
  dsimp only at h
  split at h
  · next hmatch =>
    obtain ⟨hopen, -, hclose⟩ := hmatch
    obtain rfl := Option.some.inj h
    obtain ⟨t, rfl⟩ := List.head?_eq_some_iff.mp hopen
    obtain ⟨rest, hrest⟩ := List.head?_eq_some_iff.mp hclose
    rw [List.tail_cons] at hrest ⊢
    refine ⟨fun c hc => by simpa using List.mem_takeWhile_imp hc, rest, ?_⟩
    have hsplit : t.takeWhile (WordByte ·) ++ t.dropWhile (WordByte ·) = t := List.takeWhile_append_dropWhile
    rw [hrest] at hsplit
    rw [braced, List.cons_append, List.append_assoc, List.singleton_append, hsplit]
  · cases h

/-- The braces are no bytes of words. -/
theorem wordByte_ne {c : UInt8} (h : WordByte c) : c ≠ '{'.toUInt8 ∧ c ≠ '}'.toUInt8 := by
  have hopen : ¬ WordByte '{'.toUInt8 := by decide
  have hclose : ¬ WordByte '}'.toUInt8 := by decide
  exact ⟨fun heq => hopen (heq ▸ h), fun heq => hclose (heq ▸ h)⟩

theorem strip_braced {word : List UInt8} (h : ∀ c ∈ word, WordByte c) : strip (braced word) = word := by
  have hword : word.filter (fun c => c ≠ '{'.toUInt8 ∧ c ≠ '}'.toUInt8) = word := by
    rw [List.filter_eq_self]
    intro c hc
    exact decide_eq_true (wordByte_ne (h c hc))
  unfold strip braced
  rw [List.filter_cons_of_neg (by decide), List.filter_append, hword, List.filter_cons_of_neg (by decide),
    List.filter_nil, List.append_nil]

namespace Piece

/-- What stands for the piece in the format. -/
def text : Piece → List UInt8
  | byte c => [c]
  | field word => braced word

def fieldName : Piece → Option (List UInt8)
  | byte _ => none
  | field word => some (braced word)

end Piece

theorem findAllString_eq (skip : ℕ) (s : List UInt8) :
    findAllString skip s = (pieces skip s).filterMap Piece.fieldName := by
  induction s generalizing skip with
  | nil => cases skip <;> rfl
  | cons c s ih =>
    cases skip with
    | succ skip => exact ih skip
    | zero =>
      rw [findAllString, pieces]
      cases fieldWord (c :: s) with
      | none => exact ih 0
      | some word => exact congrArg (braced word :: ·) (ih (word.length + 1))

theorem length_braced (word : List UInt8) : (braced word).length = word.length + 2 := by
  rw [braced, List.length_cons, List.length_append, List.length_singleton]

/-- The pieces make up the format. -/
theorem flatMap_text_pieces (skip : ℕ) (s : List UInt8) :
    (pieces skip s).flatMap Piece.text = s.drop skip := by
  induction s generalizing skip with
  | nil => cases skip <;> rfl
  | cons c s ih =>
    cases skip with
    | succ skip => exact ih skip
    | zero =>
      rw [pieces]
      cases hword : fieldWord (c :: s) with
      | none => exact congrArg (c :: ·) (ih 0)
      | some word =>
        obtain ⟨-, rest, hrest⟩ := fieldWord_eq_some hword
        show braced word ++ (pieces (word.length + 1) s).flatMap Piece.text = c :: s
        have hdrop : s.drop (word.length + 1) = (c :: s).drop (braced word).length := by
          rw [length_braced, List.drop_succ_cons]
        rw [ih, hdrop, hrest, List.drop_left]

theorem wordByte_of_mem_pieces {skip : ℕ} {s word : List UInt8} (h : .field word ∈ pieces skip s) :
    ∀ c ∈ word, WordByte c := by
  induction s generalizing skip with
  | nil => cases skip <;> cases h
  | cons c s ih =>
    cases skip with
    | succ skip => exact ih h
    | zero =>
      rw [pieces] at h
      cases hword : fieldWord (c :: s) with
      | none =>
        rw [hword] at h
        rcases List.mem_cons.mp h with h | h
        · cases h
        · exact ih h
      | some word' =>
        rw [hword] at h
        rcases List.mem_cons.mp h with h | h
        · obtain rfl := Piece.field.inj h
          exact (fieldWord_eq_some hword).1
        · exact ih h

/-! ## Erasing the origins -/

theorem map_fst_markFormat (i : ℕ) (s : List UInt8) : (markFormat i s).map Prod.fst = s := by
  unfold markFormat
  rw [List.map_map]
  exact List.zipIdx_map_fst i s

theorem map_fst_markValue (k : ℕ) (v : List UInt8) : (markValue k v).map Prod.fst = v := by
  unfold markValue
  rw [List.map_map]
  exact List.zipIdx_map_fst 0 v

variable {extra : List UInt8 → Option (List UInt8)}

/-- The marked loop does what `Sprintf` does. -/
theorem map_fst_markedLoop (fields : List (List UInt8)) (k : ℕ) (ret : List Marked) :
    (markedLoop extra k fields ret).map Prod.fst =
      fields.foldl
        (fun ret fieldName =>
          match extra (strip fieldName) with
          | none => ret
          | some v => Replace.once id fieldName v ret)
        (ret.map Prod.fst) := by
  induction fields generalizing k ret with
  | nil => rfl
  | cons fieldName fields ih =>
    rw [markedLoop, ih, List.foldl_cons]
    congr 1
    cases extra (strip fieldName) with
    | none => rfl
    | some v =>
      have hmap : (Replace.once Prod.fst fieldName (markValue k v) ret).map Prod.fst =
          Replace.once id fieldName ((markValue k v).map Prod.fst) (ret.map Prod.fst) :=
        Replace.map_once (fun b : Marked => (rfl : id b.1 = b.1)) ret
      rwa [map_fst_markValue] at hmap

theorem map_fst_markedSubstitute (ps : List Piece) (i k : ℕ) :
    (markedSubstitute extra i k ps).map Prod.fst = substitute extra ps := by
  induction ps generalizing i k with
  | nil => rfl
  | cons p ps ih =>
    cases p with
    | byte c => exact congrArg (c :: ·) (ih (i + 1) k)
    | field word =>
      rw [markedSubstitute, List.map_append, ih]
      show _ = (extra word).getD (braced word) ++ substitute extra ps
      cases extra word with
      | none => rw [map_fst_markFormat, Option.getD_none]
      | some v => rw [map_fst_markValue, Option.getD_some]

/-- The origins say it all. -/
theorem simultaneous_iff (format : List UInt8) :
    Simultaneous format extra ↔ markedSprintf format extra = markedSubstitute extra 0 0 (pieces 0 format) := by
  refine ⟨Simultaneous.origin, fun h => ⟨?_, h⟩⟩
  have herase := congrArg (List.map Prod.fst) h
  rwa [map_fst_markedSubstitute, markedSprintf, map_fst_markedLoop, map_fst_markFormat] at herase

/-! ## Where the text is known to be old -/

/-- An origin before the place `i` of the format and before the `k`-th placeholder. -/
def Origin.Before (i k : ℕ) : Origin → Prop
  | .format j => j < i
  | .value l _ => l < k

theorem Origin.Before.mono {o : Origin} {i k i' k' : ℕ} (h : o.Before i k) (hi : i ≤ i') (hk : k ≤ k') :
    o.Before i' k' := by
  cases o with
  | format j => exact Nat.lt_of_lt_of_le h hi
  | value l j => exact Nat.lt_of_lt_of_le h hk

theorem count_markFormat {b : Marked} {i k : ℕ} (hb : b.2.Before i k) (s : List UInt8) :
    (markFormat i s).count b = 0 := by
  rw [List.count_eq_zero]
  intro hmem
  obtain ⟨⟨c, j⟩, hj, rfl⟩ := List.mem_map.mp hmem
  exact absurd (List.le_snd_of_mem_zipIdx hj) (Nat.not_le_of_lt hb)

theorem count_markValue {b : Marked} {i k l : ℕ} (hb : b.2.Before i k) (hl : k ≤ l) (v : List UInt8) :
    (markValue l v).count b = 0 := by
  rw [List.count_eq_zero]
  intro hmem
  obtain ⟨⟨c, j⟩, -, rfl⟩ := List.mem_map.mp hmem
  exact absurd hl (Nat.not_le_of_lt hb)

variable (extra) in
/-- The loop brings no old byte back. -/
theorem count_markedLoop_le {b : Marked} {i k l : ℕ} (hb : b.2.Before i k) (hl : k ≤ l)
    (fields : List (List UInt8)) (ret : List Marked) :
    (markedLoop extra l fields ret).count b ≤ ret.count b := by
  induction fields generalizing l ret with
  | nil => exact le_rfl
  | cons fieldName fields ih =>
    rw [markedLoop]
    refine (ih (Nat.le_succ_of_le hl) _).trans ?_
    cases extra (strip fieldName) with
    | none => exact le_rfl
    | some v =>
      have hcount : (Replace.once Prod.fst fieldName (markValue l v) ret).count b ≤
          ret.count b + (markValue l v).count b := Replace.count_once_le b ret
      rwa [count_markValue hb hl, Nat.add_zero] at hcount

/-! ## Where the loop replaces -/

/-- The placeholders with a value do not occur in what stands before them, after it is substituted. -/
def Clean (extra : List UInt8 → Option (List UInt8)) : List UInt8 → List Piece → Prop
  | _, [] => True
  | done, .byte c :: ps => Clean extra (done ++ [c]) ps
  | done, .field word :: ps =>
    ((extra word).isSome → ¬ braced word <:+: done) ∧
      Clean extra (done ++ (extra word).getD (braced word)) ps

theorem before_markFormat {i k i' : ℕ} {s : List UInt8} (hi : i + s.length ≤ i') :
    ∀ b ∈ markFormat i s, b.2.Before i' k := by
  intro b hb
  obtain ⟨⟨c, j⟩, hj, rfl⟩ := List.mem_map.mp hb
  exact Nat.lt_of_lt_of_le (List.snd_lt_add_of_mem_zipIdx hj) (by omega)

theorem before_markValue {i k l : ℕ} (hl : l < k) (v : List UInt8) : ∀ b ∈ markValue l v, b.2.Before i k := by
  intro b hb
  obtain ⟨⟨c, j⟩, -, rfl⟩ := List.mem_map.mp hb
  exact hl

theorem markFormat_append (i : ℕ) (s t : List UInt8) :
    markFormat i (s ++ t) = markFormat i s ++ markFormat (i + s.length) t := by
  unfold markFormat
  rw [List.zipIdx_append, List.map_append, Nat.add_comm]

/-- A placeholder that does not occur before its own place is replaced there. -/
theorem once_placeholder {done : List Marked} {word v : List UInt8} {i k : ℕ} (hword : ∀ c ∈ word, WordByte c)
    (hnot : ¬ braced word <:+: done.map Prod.fst) {s : List UInt8} :
    Replace.once Prod.fst (braced word) (markValue k v) (done ++ markFormat i (braced word ++ s)) =
      done ++ markValue k v ++ markFormat (i + (braced word).length) s := by
  have hclose : '{'.toUInt8 ∉ word ++ ['}'.toUInt8] := by
    intro hmem
    rcases List.mem_append.mp hmem with hmem | hmem
    · exact (wordByte_ne (hword _ hmem)).1 rfl
    · exact absurd (List.mem_singleton.mp hmem) (by decide)
  rw [markFormat_append, ← List.append_assoc]
  exact Replace.once_append hclose (map_fst_markFormat i (braced word)) hnot _

/-- A byte that was replaced where it should not have been is missing in the end. -/
theorem markedLoop_ne {done : List Marked} {word v : List UInt8} {i k : ℕ}
    (hdone : ∀ b ∈ done, b.2.Before i k) (hoccurs : braced word <:+: done.map Prod.fst)
    (fields : List (List UInt8)) (s : List UInt8) (rest : List Marked) :
    markedLoop extra (k + 1) fields
        (Replace.once Prod.fst (braced word) (markValue k v) (done ++ markFormat i s)) ≠
      done ++ rest := by
  have hnil : braced word ≠ [] := List.cons_ne_nil _ _
  obtain ⟨x, y, z, rfl, hy, honce⟩ := Replace.once_of_infix hnil hoccurs (markFormat i s)
  cases y with
  | nil => cases hy
  | cons b y =>
    have hb : b.2.Before i k := hdone b (by simp)
    intro heq
    rw [honce] at heq
    have hle := count_markedLoop_le extra hb (Nat.le_succ k) fields (x ++ markValue k v ++ z ++ markFormat i s)
    rw [heq] at hle
    simp only [List.count_append, List.count_cons_self, count_markValue hb le_rfl, count_markFormat hb] at hle
    omega

/-- The loop comes to the substitution exactly if it replaces each placeholder in its own place. -/
theorem markedLoop_eq_iff (ps : List Piece) (hps : ∀ word, .field word ∈ ps → ∀ c ∈ word, WordByte c)
    {i k : ℕ} {done : List Marked} (hdone : ∀ b ∈ done, b.2.Before i k) :
    markedLoop extra k (ps.filterMap Piece.fieldName) (done ++ markFormat i (ps.flatMap Piece.text)) =
        done ++ markedSubstitute extra i k ps ↔
      Clean extra (done.map Prod.fst) ps := by
  induction ps generalizing i k done with
  | nil => exact iff_of_true rfl trivial
  | cons p ps ih =>
    have hps' : ∀ word, .field word ∈ ps → ∀ c ∈ word, WordByte c := fun word h =>
      hps word (List.mem_cons_of_mem _ h)
    cases p with
    | byte c =>
      have hdone' : ∀ b ∈ done ++ [(c, .format i)], b.2.Before (i + 1) k := by
        intro b hb
        rcases List.mem_append.mp hb with hb | hb
        · exact (hdone b hb).mono (Nat.le_succ i) le_rfl
        · obtain rfl := List.mem_singleton.mp hb
          exact Nat.lt_succ_self i
      have hstep := ih hps' hdone'
      rw [List.map_append] at hstep
      rw [show done ++ markFormat i ((Piece.byte c :: ps).flatMap Piece.text) =
        done ++ [(c, .format i)] ++ markFormat (i + 1) (ps.flatMap Piece.text) from
          (List.append_assoc done [(c, Origin.format i)] _).symm]
      rw [show done ++ markedSubstitute extra i k (.byte c :: ps) =
        done ++ [(c, .format i)] ++ markedSubstitute extra (i + 1) k ps from
          (List.append_assoc done [(c, Origin.format i)] _).symm]
      exact hstep
    | field word =>
      have hword := hps word List.mem_cons_self
      have hlater : ∀ b ∈ done, b.2.Before (i + (braced word).length) (k + 1) := fun b hb =>
        (hdone b hb).mono (Nat.le_add_right _ _) (Nat.le_succ k)
      show markedLoop extra k (braced word :: ps.filterMap Piece.fieldName)
          (done ++ markFormat i (braced word ++ ps.flatMap Piece.text)) = _ ↔ _
      rw [markedLoop, strip_braced hword, Clean, markedSubstitute]
      cases hextra : extra word with
      | none =>
        have hdone' : ∀ b ∈ done ++ markFormat i (braced word),
            b.2.Before (i + (braced word).length) (k + 1) := by
          rw [List.forall_mem_append]
          exact ⟨hlater, before_markFormat le_rfl⟩
        have hstep := ih hps' hdone'
        rw [List.map_append, map_fst_markFormat, List.append_assoc, List.append_assoc] at hstep
        rw [markFormat_append, Option.getD_none]
        exact hstep.trans (and_iff_right nofun).symm
      | some v =>
        by_cases hoccurs : braced word <:+: done.map Prod.fst
        · exact iff_of_false (markedLoop_ne hdone hoccurs _ _ _) fun h => h.1 rfl hoccurs
        · have hdone' : ∀ b ∈ done ++ markValue k v, b.2.Before (i + (braced word).length) (k + 1) := by
            rw [List.forall_mem_append]
            exact ⟨hlater, before_markValue (Nat.lt_succ_self k) v⟩
          have hstep := ih hps' hdone'
          rw [List.map_append, map_fst_markValue,
            List.append_assoc done (markValue k v) (markedSubstitute _ _ _ _)] at hstep
          rw [Option.getD_some]
          dsimp only
          rw [once_placeholder hword hoccurs]
          exact hstep.trans (and_iff_right fun _ => hoccurs).symm

theorem clean_iff (ps : List Piece) (done : List UInt8) :
    Clean extra done ps ↔ ∀ pre word post, ps = pre ++ .field word :: post → (extra word).isSome →
      ¬ braced word <:+: done ++ substitute extra pre := by
  induction ps generalizing done with
  | nil => exact iff_of_true trivial (by simp)
  | cons p ps ih =>
    -- the first piece is a placeholder, or it stands before one
    have hrest : ∀ t, (∀ pre, substitute extra (p :: pre) = t ++ substitute extra pre) →
        ((∀ pre word post, p :: ps = p :: pre ++ .field word :: post → (extra word).isSome →
          ¬ braced word <:+: done ++ substitute extra (p :: pre)) ↔ Clean extra (done ++ t) ps) := by
      intro t ht
      rw [ih]
      refine forall_congr' fun pre => forall₂_congr fun word post => ?_
      rw [ht, List.append_assoc, List.cons_append, List.cons.injEq, eq_self, true_and]
    cases p with
    | byte c =>
      rw [Clean, ← hrest [c] fun _ => rfl]
      constructor
      · intro h pre word post hpieces
        cases pre with
        | nil => cases hpieces
        | cons q pre =>
          obtain rfl := (List.cons.inj hpieces).1
          exact h pre word post hpieces
      · exact fun h pre => h (.byte c :: pre)
    | field w =>
      rw [Clean, ← hrest ((extra w).getD (braced w)) fun _ => rfl]
      constructor
      · rintro ⟨hfirst, h⟩ pre word post hpieces
        cases pre with
        | nil =>
          obtain rfl := Piece.field.inj (List.cons.inj hpieces).1
          rwa [show substitute extra [] = [] from rfl, List.append_nil]
        | cons q pre =>
          obtain rfl := (List.cons.inj hpieces).1
          exact h pre word post hpieces
      · intro h
        refine ⟨?_, fun pre => h (.field w :: pre)⟩
        have hfirst := h [] w ps rfl
        rwa [show substitute extra [] = [] from rfl, List.append_nil] at hfirst

/-- **Templates**: `Sprintf` is the simultaneous substitution exactly if no placeholder that has a value occurs
in what the format before it is substituted to. -/
theorem sprintf_simultaneous_iff (format : List UInt8) (extra : List UInt8 → Option (List UInt8)) :
    Simultaneous format extra ↔
      ∀ pre word post, pieces 0 format = pre ++ .field word :: post → (extra word).isSome →
        ¬ braced word <:+: substitute extra pre := by
  have hloop : markedLoop extra 0 ((pieces 0 format).filterMap Piece.fieldName)
        (markFormat 0 ((pieces 0 format).flatMap Piece.text)) = markedSubstitute extra 0 0 (pieces 0 format) ↔
      Clean extra [] (pieces 0 format) :=
    markedLoop_eq_iff (pieces 0 format) (fun _ => wordByte_of_mem_pieces) fun _ hb => absurd hb List.not_mem_nil
  rw [flatMap_text_pieces, List.drop_zero, ← findAllString_eq] at hloop
  exact (simultaneous_iff format).trans (hloop.trans (clean_iff (pieces 0 format) []))

/-! A value that is a placeholder. -/

def sampleExtra (word : List UInt8) : Option (List UInt8) :=
  if word = ascii "a" then some (ascii "{b}") else if word = ascii "b" then some (ascii "x") else none

theorem sprintf_not_simultaneous :
    sprintf (ascii "{a}{b}") sampleExtra = ascii "x{b}" ∧
      substitute sampleExtra (pieces 0 (ascii "{a}{b}")) = ascii "{b}x" ∧
      ¬ Simultaneous (ascii "{a}{b}") sampleExtra := by
  have hresult : sprintf (ascii "{a}{b}") sampleExtra = ascii "x{b}" := by decide +kernel
  have hmeaning : substitute sampleExtra (pieces 0 (ascii "{a}{b}")) = ascii "{b}x" := by decide +kernel
  refine ⟨hresult, hmeaning, fun h => ?_⟩
  have heq := h.result
  rw [hresult, hmeaning] at heq
  exact absurd heq (by decide)

end Vmqant.Mqanttools
