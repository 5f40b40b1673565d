import Mathlib

/-!
# Lists with keys

A list whose elements carry a key stands for a finite map when the keys are distinct. `lookup` is the
map; its lemmas say how it changes when the list is appended to, filtered by key, or changed in one
place.
-/

namespace Keyed

variable {α κ : Type} (key : α → κ)

/-- No two elements have the same key. -/
def Distinct (l : List α) : Prop := (l.map key).Nodup

/-- The first element with key `k`. -/
def lookup [DecidableEq κ] (l : List α) (k : κ) : Option α := l.find? fun a => key a = k

variable {key} {l l' : List α} {k : κ} {a b : α} {i : ℕ}

theorem Distinct.nil : Distinct key [] := List.nodup_nil

theorem Distinct.perm (h : Distinct key l) (hl : l'.Perm l) : Distinct key l' :=
  (hl.map key).nodup_iff.mpr h

theorem Distinct.tail (h : Distinct key (a :: l)) : Distinct key l := (List.nodup_cons.mp h).2

theorem Distinct.key_ne (h : Distinct key (a :: l)) (hb : b ∈ l) : key b ≠ key a := by
  intro heq
  exact (List.nodup_cons.mp h).1 (heq ▸ List.mem_map_of_mem hb)

theorem Distinct.filter (h : Distinct key l) (p : α → Bool) : Distinct key (l.filter p) :=
  List.Nodup.sublist (List.Sublist.map key List.filter_sublist) h

theorem Distinct.map (h : Distinct key l) {g : α → α} (hg : ∀ a, key (g a) = key a) :
    Distinct key (l.map g) := by
  have hmap : (l.map g).map key = l.map key := by
    rw [List.map_map]
    exact List.map_congr_left fun a _ => hg a
  unfold Distinct
  rw [hmap]
  exact h

/-- Replacing an element by one with the same key keeps the keys. -/
theorem map_set (hi : l[i]? = some a) (hb : key b = key a) : (l.set i b).map key = l.map key := by
  rw [List.map_set, hb]
  apply List.ext_getElem?
  intro j
  rw [List.getElem?_set]
  split
  · next hij =>
    subst hij
    rw [List.getElem?_map, hi]
    split
    · rfl
    · next hlt =>
      have hbound := (List.getElem?_eq_some_iff.mp hi).1
      rw [List.length_map] at hlt
      exact absurd hbound hlt
  · rfl

theorem Distinct.set (h : Distinct key l) (hi : l[i]? = some a) (hb : key b = key a) :
    Distinct key (l.set i b) := by
  unfold Distinct
  rw [map_set hi hb]
  exact h

variable [DecidableEq κ]

@[simp] theorem lookup_nil : lookup key [] k = none := rfl

theorem lookup_cons : lookup key (a :: l) k = if key a = k then some a else lookup key l k := by
  unfold lookup
  by_cases h : key a = k
  · rw [List.find?_cons_of_pos (by simpa using h), if_pos h]
  · rw [List.find?_cons_of_neg (by simpa using h), if_neg h]

theorem lookup_append : lookup key (l ++ l') k = (lookup key l k).or (lookup key l' k) :=
  List.find?_append

theorem lookup_eq_none : lookup key l k = none ↔ ∀ a ∈ l, key a ≠ k := by
  unfold lookup
  simp

/-- Nothing is found exactly in the empty list. -/
theorem forall_lookup_eq_none : (∀ k, lookup key l k = none) ↔ l = [] := by
  constructor
  · intro h
    apply List.eq_nil_iff_forall_not_mem.mpr
    intro a ha
    exact lookup_eq_none.mp (h (key a)) a ha rfl
  · rintro rfl k
    rfl

theorem mem_of_lookup (h : lookup key l k = some a) : a ∈ l ∧ key a = k := by
  refine ⟨List.mem_of_find?_eq_some h, ?_⟩
  simpa using List.find?_some h

/-- In a list with distinct keys every element is found under its key. -/
theorem Distinct.lookup_eq_some (h : Distinct key l) :
    lookup key l k = some a ↔ a ∈ l ∧ key a = k := by
  refine ⟨mem_of_lookup, ?_⟩
  rintro ⟨ha, rfl⟩
  induction l with
  | nil => cases ha
  | cons c l ih =>
    rw [lookup_cons]
    rcases List.mem_cons.mp ha with rfl | ha
    · rw [if_pos rfl]
    · rw [if_neg (h.key_ne ha).symm]
      exact ih h.tail ha

/-- In a list with distinct keys the elements with a given key are the one that is found. -/
theorem Distinct.filter_key (h : Distinct key l) :
    l.filter (fun a => key a = k) = (lookup key l k).toList := by
  induction l with
  | nil => rfl
  | cons c l ih =>
    rw [List.filter_cons, lookup_cons, ih h.tail]
    by_cases hk : key c = k
    · have hnone : lookup key l k = none :=
        lookup_eq_none.mpr fun b hb heq => h.key_ne hb (heq.trans hk.symm)
      rw [if_pos (by simpa using hk), if_pos hk, hnone]
      rfl
    · rw [if_neg (by simpa using hk), if_neg hk]

/-- When each piece of a `flatMap` has the key of its element, selecting by key picks the pieces. -/
theorem filter_flatMap (key : α → κ) {β : Type} {key' : β → κ} {g : α → List β}
    (hg : ∀ a ∈ l, ∀ b ∈ g a, key' b = key a) :
    (l.flatMap g).filter (fun b => key' b = k) = (l.filter fun a => key a = k).flatMap g := by
  induction l with
  | nil => rfl
  | cons c l ih =>
    have hc := hg c List.mem_cons_self
    rw [List.flatMap_cons, List.filter_append, ih fun a ha => hg a (List.mem_cons_of_mem _ ha),
      List.filter_cons]
    by_cases hk : key c = k
    · rw [if_pos (by simpa using hk), List.flatMap_cons, List.filter_eq_self.mpr]
      intro b hb
      simpa [hc b hb] using hk
    · rw [if_neg (by simpa using hk), List.filter_eq_nil_iff.mpr, List.nil_append]
      intro b hb
      simpa [hc b hb] using hk

/-- Skipping the elements with other keys is selecting by key first. -/
theorem flatMap_ite_key {β : Type} {g : α → List β} :
    (l.flatMap fun a => if key a ≠ k then [] else g a)
      = (l.filter fun a => key a = k).flatMap g := by
  induction l with
  | nil => rfl
  | cons c l ih =>
    rw [List.flatMap_cons, ih, List.filter_cons]
    by_cases hk : key c = k
    · rw [if_neg (by simpa using hk), if_pos (by simpa using hk), List.flatMap_cons]
    · rw [if_pos hk, if_neg (by simpa using hk), List.nil_append]

theorem lookup_filter (p : κ → Bool) :
    lookup key (l.filter fun a => p (key a)) k = if p k then lookup key l k else none := by
  induction l with
  | nil => simp
  | cons c l ih =>
    rw [List.filter_cons, lookup_cons]
    by_cases hk : key c = k
    · rw [if_pos hk, hk]
      split
      · rw [lookup_cons, if_pos hk]
      · next hp => rw [ih, if_neg hp]
    · rw [if_neg hk, ← ih]
      split
      · rw [lookup_cons, if_neg hk]
      · rfl

/-- Changing the elements but not their keys changes what is found. -/
theorem lookup_map {g : α → α} (hg : ∀ a, key (g a) = key a) :
    lookup key (l.map g) k = (lookup key l k).map g := by
  induction l with
  | nil => rfl
  | cons c l ih =>
    rw [List.map_cons, lookup_cons, lookup_cons, hg, ih]
    split <;> rfl

theorem Distinct.concat (h : Distinct key l) (ha : lookup key l (key a) = none) :
    Distinct key (l ++ [a]) := by
  unfold Distinct
  rw [List.map_append, List.nodup_append]
  refine ⟨h, List.nodup_singleton _, ?_⟩
  intro x hx y hy
  obtain ⟨b, hb, rfl⟩ := List.mem_map.mp hx
  rw [List.map_singleton, List.mem_singleton] at hy
  rw [hy]
  exact lookup_eq_none.mp ha b hb

theorem Distinct.lookup_set (h : Distinct key l) (hi : l[i]? = some a) (hb : key b = key a) :
    lookup key (l.set i b) k = if k = key a then some b else lookup key l k := by
  induction l generalizing i with
  | nil => simp at hi
  | cons c l ih =>
    cases i with
    | zero =>
      obtain rfl : c = a := by simpa using hi
      rw [List.set_cons_zero, lookup_cons, lookup_cons, hb]
      by_cases hk : key c = k
      · rw [if_pos hk, if_pos hk.symm]
      · rw [if_neg hk, if_neg (Ne.symm hk), if_neg hk]
    | succ i =>
      have hi' : l[i]? = some a := by simpa using hi
      rw [List.set_cons_succ, lookup_cons, lookup_cons, ih h.tail hi']
      by_cases hk : key c = k
      · have hne : k ≠ key a := by
          rw [← hk]
          exact (h.key_ne (List.mem_of_getElem? hi')).symm
        rw [if_pos hk, if_pos hk, if_neg hne]
      · rw [if_neg hk, if_neg hk]

end Keyed
