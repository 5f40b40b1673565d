import Vmqant.Common.LineReader
import Vmqant.Common.Printf

/-!
# The configuration file

Reference: `conf/config.go`.

The file is JSON with comment lines. `readFileInto` drops these and gives the rest to the decoder. It takes
every error of a read for the end of the file, and passes on what came with it without another look: an
unterminated last line even if it is a comment, and the first 4096 bytes of a longer line, after which nothing
is read any more.
-/

namespace Vmqant.Conf

open LineReader
open Printf (ascii)

/-! ## The function -/

/-- The buffer of `bufio.NewReader`. -/
def bufSize : ℕ := 4096

def newline : UInt8 := '\n'.toUInt8

/-- `strings.TrimLeft(line, "\t ")`. -/
def trimLeft (line : List UInt8) : List UInt8 :=
  line.dropWhile fun c => c = '\t'.toUInt8 ∨ c = ' '.toUInt8

/-- The line starts with `//` after its spaces and tabs. -/
def Comment (line : List UInt8) : Prop := ascii "//" <+: trimLeft line

instance : DecidablePred Comment := fun _ => inferInstanceAs (Decidable (_ <+: _))

/-- The loop of `readFileInto` over what is left of the file. -/
def readLoop (buf s : List UInt8) : List UInt8 :=
  match _hread : readSlice bufSize newline s with
  | (line, some _, _) => if 0 < line.length then buf ++ line else buf
  | (line, none, rest) => readLoop (if Comment line then buf else buf ++ line) rest
termination_by s.length
decreasing_by exact readSlice_lt _hread

/-- `readFileInto`: the file as `os.Open` and its reads give it, and `json.Unmarshal`. -/
def readFileInto {ε κ : Type} (file : Except ε (List UInt8)) (unmarshal : List UInt8 → Except ε κ) :
    Except ε κ := do
  let content ← file
  unmarshal (readLoop [] content)

/-! ## What it is for -/

/-- The lines that are no comments, in order. -/
def uncommented (ls : List (List UInt8)) : List UInt8 := (ls.filter (¬ Comment ·)).flatten

/-- The decoder gets the file without exactly its comment lines. -/
def Exact (content : List UInt8) : Prop :=
  ∀ (ε κ : Type) (unmarshal : List UInt8 → Except ε κ),
    readFileInto (.ok content) unmarshal = unmarshal (uncommented (lines newline content))

theorem uncommented_nil : uncommented [] = [] := rfl

theorem uncommented_cons (l : List UInt8) (ls : List (List UInt8)) :
    uncommented (l :: ls) = (if Comment l then [] else l) ++ uncommented ls := by
  by_cases hc : Comment l <;> simp [uncommented, hc]

theorem exact_iff (content : List UInt8) :
    Exact content ↔ readLoop [] content = uncommented (lines newline content) := by
  constructor
  · intro h
    exact Except.ok.inj (h Empty (List UInt8) .ok)
  · intro h ε κ unmarshal
    show unmarshal (readLoop [] content) = _
    rw [h]

/-! ## What the loop passes on -/

/-- What the loop passes on of the lines of a file. -/
def passed : List (List UInt8) → List UInt8
  | [] => []
  | l :: ls =>
    if bufSize < l.length then l.take bufSize
    else if Terminated newline l then (if Comment l then [] else l) ++ passed ls
    else l

theorem readLoop_error {buf s line rest : List UInt8} {e : ReadError}
    (h : readSlice bufSize newline s = (line, some e, rest)) : readLoop buf s = buf ++ line := by
  have hnil : ¬ 0 < line.length → line = [] := fun hlen => List.eq_nil_of_length_eq_zero (by omega)
  rw [readLoop]
  split
  · next hread =>
    obtain ⟨rfl, -, -⟩ := by simpa only [Prod.mk.injEq] using hread.symm.trans h
    split_ifs with hlen
    · rfl
    · rw [hnil hlen, List.append_nil]
  · next hread => simp [hread] at h

theorem readLoop_line {buf s line rest : List UInt8} (h : readSlice bufSize newline s = (line, none, rest)) :
    readLoop buf s = readLoop (buf ++ if Comment line then [] else line) rest := by
  rw [readLoop]
  split
  · next hread => simp [hread] at h
  · next hread =>
    obtain ⟨rfl, -, rfl⟩ := by simpa only [Prod.mk.injEq] using hread.symm.trans h
    split_ifs with hc
    · rw [List.append_nil]
    · rfl

/-- A line that does not fit in the buffer is the last thing the loop reads. -/
theorem readLoop_long (buf : List UInt8) {l : List UInt8} (s : List UInt8) (hd : newline ∉ l.take bufSize)
    (hlen : bufSize ≤ l.length) : readLoop buf (l ++ s) = buf ++ l.take bufSize := by
  have htake : (l ++ s).take bufSize = l.take bufSize := List.take_append_of_le_length hlen
  have hread := readSlice_full (s := l ++ s) (by rwa [htake]) (by rw [List.length_append]; omega)
  rw [readLoop_error hread, htake]

/-- A line that does not fit is cut before its newline. -/
theorem not_mem_take {t : List UInt8} (hd : newline ∉ t) (hlen : bufSize ≤ t.length) :
    newline ∉ (t ++ [newline]).take bufSize := by
  rw [List.take_append_of_le_length hlen]
  exact fun h => hd (List.mem_of_mem_take h)

theorem readLoop_eq {ls : List (List UInt8)} (hls : Lines newline ls) (buf : List UInt8) :
    readLoop buf ls.flatten = buf ++ passed ls := by
  induction hls generalizing buf with
  | nil => exact readLoop_error (readSlice_eof List.not_mem_nil (by decide))
  | @last t hd hne =>
    have htake : newline ∉ t.take bufSize := fun h => hd (List.mem_of_mem_take h)
    rw [passed, List.flatten_singleton, if_neg (not_terminated hd)]
    rcases lt_or_ge t.length bufSize with hlen | hlen
    · rw [readLoop_error (readSlice_eof hd hlen), if_neg (by omega)]
    · have hlong := readLoop_long buf [] htake hlen
      rw [List.append_nil] at hlong
      rw [hlong]
      split_ifs with hlt
      · rfl
      · rw [List.take_of_length_le (by omega)]
  | @line t ls hd hls ih =>
    have hlength : (t ++ [newline]).length = t.length + 1 := by simp
    rw [passed, List.flatten_cons, if_pos (terminated_line t)]
    rcases lt_or_ge t.length bufSize with hlen | hlen
    · rw [if_neg (by omega), List.append_assoc, List.singleton_append,
        readLoop_line (readSlice_line hd hlen), ih, List.append_assoc]
    · rw [if_pos (by omega), readLoop_long _ ls.flatten (not_mem_take hd hlen) (by omega)]

/-! ## When that is right -/

/-- A line that does not fit in the buffer does no harm if it is a comment, and only comments follow, up to an
unterminated last line: the part of the long one that fits, and this is no comment. -/
def Hidden (l : List UInt8) (ls : List (List UInt8)) : Prop :=
  Comment l ∧ ∃ comments, ls = comments ++ [l.take bufSize] ∧ (∀ c ∈ comments, Comment c) ∧
    ¬ Comment (l.take bufSize)

/-- All lines fit in the buffer, and an unterminated one is no comment; or the first line that does not fit is
hidden. -/
def Readable (ls : List (List UInt8)) : Prop :=
  (∀ l ∈ ls, l.length ≤ bufSize ∧ (Comment l → Terminated newline l)) ∨
    ∃ before l after, ls = before ++ l :: after ∧ (∀ b ∈ before, b.length ≤ bufSize) ∧ bufSize < l.length ∧
      Hidden l after

/-- A text without a newline is what is left of some lines if it is the last one and the others are comments. -/
theorem uncommented_eq_iff {ls : List (List UInt8)} (hls : Lines newline ls) {t : List UInt8} (hne : t ≠ [])
    (hd : newline ∉ t) :
    uncommented ls = t ↔
      ∃ comments, ls = comments ++ [t] ∧ (∀ c ∈ comments, Comment c) ∧ ¬ Comment t := by
  constructor
  · intro h
    induction hls with
    | nil => exact absurd h.symm hne
    | @last l _ _ =>
      rw [uncommented_cons, uncommented_nil, List.append_nil] at h
      split_ifs at h with hc
      · exact absurd h.symm hne
      · exact ⟨[], by rw [h, List.nil_append], fun _ hmem => absurd hmem List.not_mem_nil, h ▸ hc⟩
    | @line l ls _ _ ih =>
      rw [uncommented_cons] at h
      split_ifs at h with hc
      · obtain ⟨comments, rfl, hcomments, ht⟩ := ih h
        exact ⟨(l ++ [newline]) :: comments, rfl, List.forall_mem_cons.mpr ⟨hc, hcomments⟩, ht⟩
      · exact absurd (by rw [← h]; simp) hd
  · rintro ⟨comments, rfl, hcomments, ht⟩
    have hnone : comments.filter (¬ Comment ·) = [] := by simpa using hcomments
    rw [uncommented, List.filter_append, hnone]
    simp [ht]

/-- A line that does not fit decides. -/
theorem readable_long {l : List UInt8} {ls : List (List UInt8)} (hlen : bufSize < l.length) :
    Readable (l :: ls) ↔ Hidden l ls := by
  constructor
  · rintro (h | ⟨before, l', after, heq, hbefore, -, hhidden⟩)
    · have hfits := (h l List.mem_cons_self).1
      omega
    · rcases List.cons_eq_append_iff.mp heq with ⟨rfl, heq⟩ | ⟨before', rfl, -⟩
      · obtain ⟨rfl, rfl⟩ := List.cons.inj heq
        exact hhidden
      · have hfits := hbefore l List.mem_cons_self
        omega
  · intro h
    exact .inr ⟨[], l, ls, rfl, fun _ hmem => absurd hmem List.not_mem_nil, hlen, h⟩

/-- A line that fits is in order if it is terminated or no comment, and then the others decide. -/
theorem readable_short {l : List UInt8} {ls : List (List UInt8)} (hlen : l.length ≤ bufSize)
    (ht : Comment l → Terminated newline l) : Readable (l :: ls) ↔ Readable ls := by
  constructor
  · rintro (h | ⟨before, l', after, heq, hbefore, hlong, hhidden⟩)
    · exact .inl fun l' hl' => h l' (List.mem_cons_of_mem _ hl')
    · rcases List.cons_eq_append_iff.mp heq with ⟨rfl, heq⟩ | ⟨before', rfl, heq⟩
      · obtain ⟨rfl, -⟩ := List.cons.inj heq
        omega
      · have hbefore' : ∀ b ∈ before', b.length ≤ bufSize := fun b hb => hbefore b (List.mem_cons_of_mem _ hb)
        exact .inr ⟨before', l', after, (List.cons.inj heq).2, hbefore', hlong, hhidden⟩
  · rintro (h | ⟨before, l', after, rfl, hbefore, hlong, hhidden⟩)
    · exact .inl (List.forall_mem_cons.mpr ⟨⟨hlen, ht⟩, h⟩)
    · exact .inr ⟨l :: before, l', after, rfl, List.forall_mem_cons.mpr ⟨hlen, hbefore⟩, hlong, hhidden⟩

/-- An unterminated comment that fits is passed on. -/
theorem not_readable_last {l : List UInt8} (hlen : l.length ≤ bufSize) (hc : Comment l)
    (ht : ¬ Terminated newline l) : ¬ Readable [l] := by
  rintro (h | ⟨before, l', after, heq, -, hlong, -⟩)
  · exact ht ((h l List.mem_cons_self).2 hc)
  · have hmem : l' ∈ [l] := by rw [heq]; simp
    rw [List.mem_singleton.mp hmem] at hlong
    omega

theorem readable_nil : Readable [] := .inl fun _ h => absurd h List.not_mem_nil

/-- Of a line that does not fit, the loop passes on the first part; that is right if the line is hidden. -/
theorem passed_long_iff {l : List UInt8} {ls : List (List UInt8)} (hls : Lines newline ls)
    (hlen : bufSize < l.length) (hd : newline ∉ l.take bufSize) :
    passed (l :: ls) = uncommented (l :: ls) ↔ Hidden l ls := by
  have htake : (l.take bufSize).length = bufSize := by rw [List.length_take]; omega
  have hne : l.take bufSize ≠ [] := List.ne_nil_of_length_pos (by rw [htake]; decide)
  rw [passed, if_pos hlen, uncommented_cons, Hidden, ← uncommented_eq_iff hls hne hd]
  split_ifs with hc
  · rw [List.nil_append]
    exact ⟨fun h => ⟨hc, h.symm⟩, fun h => h.2.symm⟩
  · refine ⟨fun h => ?_, fun h => absurd h.1 hc⟩
    -- The whole line is longer than its part.
    have hlength := congrArg List.length h
    rw [List.length_append] at hlength
    omega

/-- By induction on the lines: the first that does not fit decides, and so does an unterminated one. -/
theorem passed_eq_iff {ls : List (List UInt8)} (hls : Lines newline ls) :
    passed ls = uncommented ls ↔ Readable ls := by
  induction hls with
  | nil => exact iff_of_true rfl readable_nil
  | @last t hd hne =>
    have htake : newline ∉ t.take bufSize := fun h => hd (List.mem_of_mem_take h)
    rcases lt_or_ge bufSize t.length with hlen | hlen
    · rw [passed_long_iff .nil hlen htake, readable_long hlen]
    · rw [passed, if_neg (by omega), if_neg (not_terminated hd), uncommented_cons, uncommented_nil,
        List.append_nil]
      split_ifs with hc
      · exact iff_of_false hne (not_readable_last hlen hc (not_terminated hd))
      · exact iff_of_true rfl ((readable_short hlen fun h => absurd h hc).mpr readable_nil)
  | @line t ls hd hls ih =>
    have ht : Terminated newline (t ++ [newline]) := terminated_line t
    have hlength : (t ++ [newline]).length = t.length + 1 := by simp
    rcases lt_or_ge bufSize (t ++ [newline]).length with hlen | hlen
    · rw [passed_long_iff hls hlen (not_mem_take hd (by omega)), readable_long hlen]
    · rw [passed, if_neg (by omega), if_pos ht, uncommented_cons, readable_short hlen fun _ => ht, ← ih]
      exact List.append_right_inj _

theorem readLoop_content (content : List UInt8) : readLoop [] content = passed (lines newline content) := by
  have h := readLoop_eq (lines_lines (d := newline) content) []
  rwa [flatten_lines, List.nil_append] at h

/-- **Comments**: the decoder gets the file without them exactly if no line is too long and no unterminated one
is a comment, but for a long line that is hidden. -/
theorem readFileInto_exact_iff (content : List UInt8) :
    Exact content ↔ Readable (lines newline content) := by
  rw [exact_iff, readLoop_content, passed_eq_iff (lines_lines content)]

/-- The comment at the end of a file is passed on, and a long line is cut. -/
theorem readFileInto_passes_comment :
    ¬ Exact (ascii "{}\n// end") ∧
      ¬ Exact ('{'.toUInt8 :: (List.replicate 4096 ' '.toUInt8 ++ ['}'.toUInt8])) := by
  refine ⟨?_, ?_⟩ <;> rw [exact_iff, readLoop_content]
  · decide
  · have hd : newline ∉ '{'.toUInt8 :: (List.replicate 4096 ' '.toUInt8 ++ ['}'.toUInt8]) := by
      simp only [List.mem_cons, List.mem_append, List.mem_replicate, List.not_mem_nil]
      decide
    have hlen : ('{'.toUInt8 :: (List.replicate 4096 ' '.toUInt8 ++ ['}'.toUInt8])).length = 4098 := by
      rw [List.length_cons, List.length_append, List.length_replicate, List.length_singleton]
    rw [lines_of_not_mem hd (List.cons_ne_nil _ _), passed_eq_iff (.last hd (List.cons_ne_nil _ _)),
      readable_long (by rw [hlen]; decide)]
    rintro ⟨hc, -⟩
    have htrim : ∀ s : List UInt8, trimLeft ('{'.toUInt8 :: s) = '{'.toUInt8 :: s :=
      fun s => List.dropWhile_cons_of_neg (by decide)
    rw [Comment, htrim] at hc
    exact absurd (List.cons_prefix_cons.mp hc).1 (by decide)

end Vmqant.Conf
