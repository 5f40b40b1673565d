import Mathlib.Data.List.Basic
import Mathlib.Tactic.Common

/-!
# Lines and a line reader with a fixed buffer

The lines of a text keep the delimiter that ends them, and only the last one may lack it: `Lines` says so, and
`lines` divides a text like that. `readSlice` reads one line, but never more than its buffer holds.
-/

namespace LineReader

variable {α : Type*} {d : α}

/-! ## Lines -/

/-- A text divided at the delimiter `d`: each line ends in its `d`, except that the last one may have none. -/
inductive Lines (d : α) : List (List α) → Prop where
  | nil : Lines d []
  | last {t : List α} (hd : d ∉ t) (hne : t ≠ []) : Lines d [t]
  | line {t : List α} {ls : List (List α)} (hd : d ∉ t) (hls : Lines d ls) : Lines d ((t ++ [d]) :: ls)

/-- The line ends in the delimiter. -/
def Terminated (d : α) (l : List α) : Prop := l.getLast? = some d

instance [DecidableEq α] (l : List α) : Decidable (Terminated d l) := inferInstanceAs (Decidable (_ = _))

theorem terminated_line (t : List α) : Terminated d (t ++ [d]) := List.getLast?_concat

theorem not_terminated {t : List α} (hd : d ∉ t) : ¬ Terminated d t :=
  fun h => hd (List.mem_of_getLast? h)

section Divide

variable [DecidableEq α]

/-- The lines of a text. -/
def lines (d : α) : List α → List (List α)
  | [] => []
  | c :: s =>
    if c = d then [c] :: lines d s
    else
      match lines d s with
      | [] => [[c]]
      | l :: ls => (c :: l) :: ls

theorem flatten_lines (s : List α) : (lines d s).flatten = s := by
  induction s with
  | nil => rfl
  | cons c s ih =>
    rw [lines]
    split_ifs with hc
    · rw [List.flatten_cons, ih, List.singleton_append]
    · rcases hls : lines d s with _ | ⟨l, ls⟩ <;> rw [hls] at ih <;> simp [← ih]

theorem lines_lines (s : List α) : Lines d (lines d s) := by
  induction s with
  | nil => exact .nil
  | cons c s ih =>
    rw [lines]
    split_ifs with hc
    · subst hc
      exact .line (t := []) List.not_mem_nil ih
    · have hne : d ∉ [c] := fun h => hc (List.mem_singleton.mp h).symm
      generalize lines d s = ls at ih
      cases ih with
      | nil => exact .last hne (List.cons_ne_nil _ _)
      | last hd _ => exact .last (by simp [hd, Ne.symm hc]) (List.cons_ne_nil _ _)
      | @line t _ hd hls => exact .line (t := c :: t) (by simp [hd, Ne.symm hc]) hls

theorem lines_of_not_mem {s : List α} (hd : d ∉ s) (hne : s ≠ []) : lines d s = [s] := by
  have hflat := flatten_lines (d := d) s
  have hlines := lines_lines (d := d) s
  revert hflat
  generalize lines d s = ls at hlines
  intro hflat
  cases hlines with
  | nil => exact absurd hflat.symm hne
  | last _ _ => simpa using hflat
  | line _ _ => exact absurd (by rw [← hflat]; simp) hd

end Divide

/-! ## The reader -/

/-- Why a read returned no whole line. -/
inductive ReadError where
  | eof
  | bufferFull
deriving DecidableEq

section Read

variable [DecidableEq α] {size : ℕ}

/-- One read with a buffer of `size` elements: what it returns, why that is no whole line, and what is left. -/
def readSlice (size : ℕ) (d : α) (s : List α) : List α × Option ReadError × List α :=
  let buffered := s.take size
  match buffered.idxOf? d with
  | some i => (buffered.take (i + 1), none, s.drop (i + 1))
  | none =>
    if size ≤ buffered.length then (buffered, some .bufferFull, s.drop size) else (buffered, some .eof, [])

theorem readSlice_line {t s : List α} (hd : d ∉ t) (hlen : t.length < size) :
    readSlice size d (t ++ d :: s) = (t ++ [d], none, s) := by
  obtain ⟨k, rfl⟩ : ∃ k, size = t.length + (k + 1) := ⟨size - t.length - 1, by omega⟩
  have htake : (t ++ d :: s).take (t.length + (k + 1)) = t ++ d :: s.take k := by
    rw [List.take_length_add_append, List.take_succ_cons]
  have hidx : (t ++ d :: s.take k).idxOf? d = some t.length := by
    have hnone : t.findIdx? (· == d) = none := List.idxOf?_eq_none_iff.mpr hd
    rw [List.idxOf?, List.findIdx?_append, hnone, List.findIdx?_cons, beq_self_eq_true, if_pos rfl]
    simp
  have hline : (t ++ d :: s.take k).take (t.length + 1) = t ++ [d] := by
    rw [List.take_length_add_append, List.take_succ_cons, List.take_zero]
  have hrest : (t ++ d :: s).drop (t.length + 1) = s := by
    rw [List.drop_length_add_append, List.drop_succ_cons, List.drop_zero]
  simp only [readSlice, htake, hidx, hline, hrest]

theorem readSlice_eof {s : List α} (hd : d ∉ s) (hlen : s.length < size) :
    readSlice size d s = (s, some .eof, []) := by
  have htake : s.take size = s := List.take_of_length_le (Nat.le_of_lt hlen)
  have hidx : s.idxOf? d = none := List.idxOf?_eq_none_iff.mpr hd
  simp only [readSlice, htake, hidx, if_neg (Nat.not_le.mpr hlen)]

theorem readSlice_full {s : List α} (hd : d ∉ s.take size) (hlen : size ≤ s.length) :
    readSlice size d s = (s.take size, some .bufferFull, s.drop size) := by
  have hidx : (s.take size).idxOf? d = none := List.idxOf?_eq_none_iff.mpr hd
  have hfull : size ≤ (s.take size).length := by rw [List.length_take]; omega
  simp only [readSlice, hidx, if_pos hfull]

/-- A whole line is not empty: less is left than there was. -/
theorem readSlice_lt {s line rest : List α} (h : readSlice size d s = (line, none, rest)) :
    rest.length < s.length := by
  unfold readSlice at h
  dsimp only at h
  split at h
  · next i hidx =>
    obtain ⟨hi, -⟩ := List.idxOf?_eq_some_iff.mp hidx
    rw [List.length_take] at hi
    obtain ⟨-, -, rfl⟩ := by simpa only [Prod.mk.injEq] using h
    rw [List.length_drop]
    omega
  · split_ifs at h <;> simp at h

end Read

end LineReader
