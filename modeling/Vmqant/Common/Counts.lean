import Mathlib

/-!
# Counting processes

How many processes of a family are at a place. The family may be infinite, the count is finite.
-/

variable {α β : Type*}

/-- Exactly `n` of the processes are where `p` holds. -/
def Counts (p : β → Prop) (f : α → β) (n : ℕ) : Prop := {a | p (f a)}.encard = n

namespace Counts

variable {p : β → Prop} {f : α → β} {n : ℕ}

theorem zero_iff : Counts p f 0 ↔ ∀ a, ¬ p (f a) := by
  rw [Counts, Nat.cast_zero, Set.encard_eq_zero, Set.eq_empty_iff_forall_notMem]
  rfl

variable [DecidableEq α] {a : α} {b : β}

/-- A process moves and stays on its side of `p`. -/
theorem stay (h : Counts p f n) (hab : p b ↔ p (f a)) : Counts p (Function.update f a b) n := by
  have hset : {x | p (Function.update f a b x)} = {x | p (f x)} := by
    ext x
    by_cases hx : x = a
    · subst hx
      simpa using hab
    · simp [hx]
  rw [Counts, hset]
  exact h

/-- A process comes in. -/
theorem enter (h : Counts p f n) (ha : ¬ p (f a)) (hb : p b) :
    Counts p (Function.update f a b) (n + 1) := by
  have hset : {x | p (Function.update f a b x)} = insert a {x | p (f x)} := by
    ext x
    by_cases hx : x = a
    · subst hx
      simpa using hb
    · simp [hx]
  have hnot : a ∉ {x | p (f x)} := ha
  rw [Counts, hset, Set.encard_insert_of_notMem hnot, h]
  rfl

/-- A process goes out. -/
theorem leave (h : Counts p f n) (ha : p (f a)) (hb : ¬ p b) :
    Counts p (Function.update f a b) (n - 1) := by
  have hset : {x | p (Function.update f a b x)} = {x | p (f x)} \ {a} := by
    ext x
    by_cases hx : x = a
    · subst hx
      simpa using hb
    · simp [hx]
  have hmem : a ∈ {x | p (f x)} := ha
  rw [Counts, hset, Set.encard_sdiff_singleton_of_mem hmem, h]
  exact (ENat.natCast_sub n 1).symm

/-- What a process weighs at its new place takes the place of what it weighed. -/
theorem sum_update {α : Type*} [DecidableEq α] [Fintype α] (w : β → ℕ) (f : α → β) (a : α) (b : β) :
    ∑ x, w (Function.update f a b x) + w (f a) = ∑ x, w (f x) + w b := by
  have hothers : ∑ x ∈ Finset.univ.erase a, w (Function.update f a b x)
      = ∑ x ∈ Finset.univ.erase a, w (f x) := by
    refine Finset.sum_congr rfl fun x hx => ?_
    rw [Function.update_of_ne (Finset.ne_of_mem_erase hx)]
  rw [← Finset.add_sum_erase _ _ (Finset.mem_univ a), ← Finset.add_sum_erase _ (fun x => w (f x))
    (Finset.mem_univ a), Function.update_self, hothers]
  omega

end Counts
