import Mathlib

/-!
# The first occurrence of a word

A text is a list of things that have a byte, so that a byte may carry more than its value. A word is replaced
where it occurs first.
-/

namespace Replace

variable {β γ : Type*} (byte : β → UInt8)

/-- The text with `new` for the first occurrence of `old`. -/
def once (old : List UInt8) (new : List β) : List β → List β
  | [] => if old = [] then new else []
  | c :: s =>
    if old <+: (c :: s).map byte then new ++ (c :: s).drop old.length else c :: once old new s

variable {byte} {old : List UInt8} {new : List β}

/-- A map that keeps the bytes goes through. -/
theorem map_once {byte' : γ → UInt8} {f : β → γ} (hf : ∀ b, byte' (f b) = byte b) (s : List β) :
    (once byte old new s).map f = once byte' old (new.map f) (s.map f) := by
  have hbyte : byte' ∘ f = byte := funext hf
  induction s with
  | nil =>
    unfold once
    split <;> rfl
  | cons c s ih =>
    rw [List.map_cons, once, once, ← List.map_cons, List.map_map, hbyte]
    split
    · rw [List.map_append, List.map_drop]
    · rw [List.map_cons, ih]

/-- The replacement adds at most the bytes of `new`. -/
theorem count_once_le [BEq β] (b : β) (s : List β) :
    (once byte old new s).count b ≤ s.count b + new.count b := by
  induction s with
  | nil =>
    unfold once
    split
    · exact Nat.le_add_left _ _
    · exact Nat.zero_le _
  | cons c s ih =>
    rw [once]
    split
    · have hdrop := (List.drop_sublist old.length (c :: s)).count_le b
      rw [List.count_append]
      omega
    · rw [List.count_cons, List.count_cons]
      omega

/-- A word that occurs in the first part of a text is replaced there. -/
theorem once_of_infix {done : List β} (hnil : old ≠ []) (hoccurs : old <:+: done.map byte) (rest : List β) :
    ∃ x y z, done = x ++ y ++ z ∧ y.map byte = old ∧
      once byte old new (done ++ rest) = x ++ new ++ z ++ rest := by
  induction done with
  | nil => exact absurd (List.infix_nil.mp hoccurs) hnil
  | cons c done ih =>
    by_cases hstarts : old <+: (c :: done).map byte
    · have htake : ((c :: done).take old.length).map byte = old := by
        rw [List.map_take]
        exact (List.prefix_iff_eq_take.mp hstarts).symm
      refine ⟨[], (c :: done).take old.length, (c :: done).drop old.length, ?_, htake, ?_⟩
      · rw [List.nil_append, List.take_append_drop]
      · have hle : old.length ≤ (c :: done).length := by simpa using hstarts.length_le
        have hwhole : old <+: (c :: (done ++ rest)).map byte := by
          rw [← List.cons_append, List.map_append]
          exact hstarts.trans (List.prefix_append _ _)
        rw [List.cons_append, once, if_pos hwhole, ← List.cons_append, List.drop_append_of_le_length hle,
          List.nil_append, List.append_assoc]
    · have hrest : old <:+: done.map byte := by
        rw [List.map_cons, List.infix_cons_iff, ← List.map_cons] at hoccurs
        exact hoccurs.resolve_left hstarts
      have hlater : ¬ old <+: (c :: (done ++ rest)).map byte := by
        intro hwhole
        rw [← List.cons_append, List.map_append] at hwhole
        refine hstarts (List.prefix_of_prefix_length_le hwhole (List.prefix_append _ _) ?_)
        rw [List.map_cons, List.length_cons]
        exact hrest.length_le.trans (Nat.le_succ _)
      obtain ⟨x, y, z, hdone, hy, honce⟩ := ih hrest
      refine ⟨c :: x, y, z, congrArg (c :: ·) hdone, hy, ?_⟩
      rw [List.cons_append, once, if_neg hlater, honce]
      rfl

/-- A word whose first byte does not come again cannot start in one part of a text and end in the next one, if
that starts with it too. -/
theorem prefix_of_append {a : UInt8} {t d r : List UInt8} (ha : a ∉ t) (hd : d ≠ [])
    (h : a :: t <+: d ++ (a :: t) ++ r) : a :: t <+: d := by
  rw [List.append_assoc] at h
  rcases Nat.le_total (a :: t).length d.length with hle | hle
  · exact List.prefix_of_prefix_length_le h (List.prefix_append _ _) hle
  · obtain ⟨e, he⟩ := List.prefix_of_prefix_length_le (List.prefix_append d _) h hle
    cases e with
    | nil => exact ⟨[], by rw [List.append_nil, ← he, List.append_nil]⟩
    | cons b e =>
      -- the second copy starts inside the first one
      rw [← he, List.prefix_append_right_inj, he, List.cons_append, List.cons_prefix_cons] at h
      obtain ⟨c, d, rfl⟩ := List.exists_cons_of_ne_nil hd
      have hmem : b ∈ t := by
        rw [← (List.cons.inj he).2]
        exact List.mem_append_right _ List.mem_cons_self
      exact absurd (h.1 ▸ hmem) ha

/-- A word that does not occur in the first part of a text is replaced if the second part starts with it. -/
theorem once_append {a : UInt8} {t : List UInt8} (ha : a ∉ t) {done y : List β} (hy : y.map byte = a :: t)
    (hnot : ¬ a :: t <:+: done.map byte) (rest : List β) :
    once byte (a :: t) new (done ++ y ++ rest) = done ++ new ++ rest := by
  induction done with
  | nil =>
    rw [List.nil_append, List.nil_append]
    cases y with
    | nil => cases hy
    | cons b y =>
      have hlength : (a :: t).length = (b :: y).length := by rw [← hy, List.length_map]
      have hstarts : a :: t <+: (b :: (y ++ rest)).map byte := by
        rw [← List.cons_append, List.map_append, hy]
        exact List.prefix_append _ _
      rw [List.cons_append, once, if_pos hstarts, ← List.cons_append, hlength, List.drop_left]
  | cons c done ih =>
    rw [List.map_cons, List.infix_cons_iff, not_or, ← List.map_cons] at hnot
    have hlater : ¬ a :: t <+: (c :: (done ++ y ++ rest)).map byte := by
      intro hwhole
      rw [← List.cons_append, ← List.cons_append, List.map_append, List.map_append, hy] at hwhole
      exact hnot.1 (prefix_of_append ha (List.cons_ne_nil _ _) hwhole)
    rw [List.cons_append, List.cons_append, once, if_neg hlater, ih hnot.2]
    rfl

end Replace
