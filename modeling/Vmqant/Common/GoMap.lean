import Mathlib

/-!
# Maps that are filled in a loop

A finite map with the order in which a loop goes through it: `AList`. Two ways to add one map to
another, entry by entry: the new value wins, or the one that is there.
-/

namespace GoMap

variable {κ ν : Type} [DecidableEq κ]

theorem lookup_insert (m : AList fun _ : κ => ν) (k k' : κ) (v : ν) :
    (m.insert k v).lookup k' = if k' = k then some v else m.lookup k' := by
  split
  · next h => rw [h, AList.lookup_insert]
  · next h => rw [AList.lookup_insert_ne h]

theorem lookup_erase (m : AList fun _ : κ => ν) (k k' : κ) :
    (m.erase k).lookup k' = if k' = k then none else m.lookup k' := by
  split
  · next h => rw [h, AList.lookup_erase]
  · next h => rw [AList.lookup_erase_ne h]

theorem length_keys_insert {m : AList fun _ : κ => ν} {k : κ} (v : ν) (h : m.lookup k = none) :
    (m.insert k v).keys.length = m.keys.length + 1 := by
  have hnot : k ∉ m.keys := AList.mem_keys.not.mp (AList.lookup_eq_none.mp h)
  rw [AList.keys_insert, List.erase_of_not_mem hnot, List.length_cons]

theorem length_keys_erase {m : AList fun _ : κ => ν} {k : κ} {v : ν} (h : m.lookup k = some v) :
    m.keys.length = (m.erase k).keys.length + 1 := by
  have hmem : k ∈ m.keys := by
    rw [← AList.mem_keys, ← AList.lookup_isSome, h]
    rfl
  rw [AList.keys_erase, List.length_erase_add_one hmem]

theorem perm_cons_erase {m : AList fun _ : κ => ν} {k : κ} {v : ν} (h : m.lookup k = some v) :
    m.entries.Perm (⟨k, v⟩ :: (m.erase k).entries) := by
  have hmem : ⟨k, v⟩ ∈ m.entries := AList.mem_lookup_iff.mp h
  obtain ⟨w, l₁, l₂, -, heq, herase⟩ := List.exists_of_kerase (List.mem_keys_of_mem hmem)
  have hw : (⟨k, w⟩ : (_ : κ) × ν) ∈ m.entries := heq ▸ List.mem_append_right _ List.mem_cons_self
  obtain rfl : w = v := Option.some.inj ((AList.mem_lookup_iff.mpr hw).symm.trans h)
  have hentries : (m.erase k).entries = l₁ ++ l₂ := herase
  rw [heq, hentries]
  exact List.perm_middle

/-- What a loop leaves that deletes keys. -/
theorem lookup_foldl_erase (gone : List κ) (m : AList fun _ : κ => ν) (k : κ) :
    (gone.foldl (fun m k => m.erase k) m).lookup k = if k ∈ gone then none else m.lookup k := by
  induction gone generalizing m with
  | nil => rfl
  | cons k' gone ih =>
    rw [List.foldl_cons, ih, lookup_erase]
    by_cases hk : k = k'
    · rw [if_pos hk, ite_self, if_pos (List.mem_cons.mpr (.inl hk))]
    · simp only [List.mem_cons, hk, false_or, if_false]

theorem mem_keys_foldl_erase {gone : List κ} {m : AList fun _ : κ => ν} {k : κ} :
    k ∈ (gone.foldl (fun m k => m.erase k) m).keys ↔ k ∈ m.keys ∧ k ∉ gone := by
  rw [← AList.mem_keys, ← AList.lookup_isSome, lookup_foldl_erase, ← AList.mem_keys, ← AList.lookup_isSome]
  by_cases hk : k ∈ gone <;> simp [hk]

/-- The entries whose values meet `p`. -/
def filter (m : AList fun _ : κ => ν) (p : ν → Bool) : AList fun _ : κ => ν :=
  ⟨m.entries.filter fun e => p e.2, m.nodupKeys.sublist List.filter_sublist⟩

omit [DecidableEq κ] in
theorem mem_entries_filter {m : AList fun _ : κ => ν} {p : ν → Bool} {e : (_ : κ) × ν} :
    e ∈ (filter m p).entries ↔ e ∈ m.entries ∧ p e.2 = true := List.mem_filter

theorem lookup_filter (m : AList fun _ : κ => ν) (p : ν → Bool) (k : κ) :
    (filter m p).lookup k = (m.lookup k).filter p := by
  apply Option.ext
  intro v
  have hmem : v ∈ (filter m p).lookup k ↔ v ∈ m.lookup k ∧ p v = true := by
    rw [AList.mem_lookup_iff, mem_entries_filter, ← AList.mem_lookup_iff]
  exact hmem.trans Option.mem_filter_iff.symm

/-- Insert `k` unless it is there. -/
def insertNew (m : AList fun _ : κ => ν) (k : κ) (v : ν) : AList fun _ : κ => ν :=
  if (m.lookup k).isSome then m else m.insert k v

theorem lookup_insertNew (m : AList fun _ : κ => ν) (k k' : κ) (v : ν) :
    (insertNew m k v).lookup k' = (m.lookup k').or (if k' = k then some v else none) := by
  unfold insertNew
  by_cases hk : k' = k
  · subst hk
    rw [if_pos rfl]
    split
    · next h =>
      obtain ⟨w, hw⟩ := Option.isSome_iff_exists.mp h
      rw [hw, Option.some_or]
    · next h =>
      rw [Option.not_isSome_iff_eq_none.mp h, AList.lookup_insert, Option.none_or]
  · rw [if_neg hk, Option.or_none]
    split
    · rfl
    · rw [AList.lookup_insert_ne hk]

/-- A loop whose step adds one entry adds all of them: `join` says what becomes of a value. -/
theorem lookup_foldl {μ : Type} (join : Option ν → Option μ → Option ν) (hnone : ∀ x, join x none = x)
    {f : (AList fun _ : κ => ν) → κ → μ → AList fun _ : κ => ν} {k' : κ}
    (hf : ∀ m k v, (f m k v).lookup k' = join (m.lookup k') (if k' = k then some v else none))
    (entries : AList fun _ : κ => μ) (m : AList fun _ : κ => ν) :
    (entries.foldl f m).lookup k' = join (m.lookup k') (entries.lookup k') := by
  obtain ⟨l, hl⟩ := entries
  unfold AList.foldl AList.lookup
  dsimp only
  induction l generalizing m with
  | nil => exact (hnone _).symm
  | cons e l ih =>
    obtain ⟨k, v⟩ := e
    obtain ⟨hfresh, hl⟩ := List.nodupKeys_cons.mp hl
    have hstep := hf m k v
    unfold AList.lookup at hstep
    rw [List.foldl_cons, ih (f m k v) hl, hstep]
    by_cases hk : k' = k
    · -- the key is not met again
      subst hk
      rw [if_pos rfl, List.dlookup_cons_eq, List.dlookup_eq_none.mpr hfresh, hnone]
    · rw [if_neg hk, hnone, List.dlookup_cons_ne _ _ hk]

/-- The new values win. -/
theorem lookup_foldl_insert (entries m : AList fun _ : κ => ν) (k : κ) :
    (entries.foldl (fun m k v => m.insert k v) m).lookup k = (entries.lookup k).or (m.lookup k) := by
  refine lookup_foldl (fun x y => y.or x) (fun x => rfl) (fun m k' v => ?_) entries m
  rw [lookup_insert]
  split <;> rfl

/-- The values that are there win. -/
theorem lookup_foldl_insertNew (entries m : AList fun _ : κ => ν) (k : κ) :
    (entries.foldl insertNew m).lookup k = (m.lookup k).or (entries.lookup k) :=
  lookup_foldl Option.or (fun _ => Option.or_none) (fun m k' v => lookup_insertNew m k' k v) entries m

/-! ## The first match -/

/-- A loop that stops at the first match, in any order, finds something with the property `q` exactly when
there is a match with it: that is so unless there are matches with it and without it. -/
theorem find?_perm_iff {α : Type} {l : List α} {p : α → Bool} {q : α → Prop} :
    (∀ l' : List α, l'.Perm l → ((∃ x, l'.find? p = some x ∧ q x) ↔ ∃ x ∈ l, p x = true ∧ q x)) ↔
      ((∃ x ∈ l, p x = true ∧ q x) → ∀ x ∈ l, p x = true → q x) := by
  constructor
  · -- the match is the first one in some order
    intro h hq y hy hpy
    obtain ⟨l₁, l₂, rfl⟩ := List.append_of_mem hy
    obtain ⟨x, hx, hqx⟩ := (h (y :: (l₁ ++ l₂)) List.perm_middle.symm).mpr hq
    rw [List.find?_cons_of_pos hpy] at hx
    exact Option.some.inj hx ▸ hqx
  · intro h l' hl'
    constructor
    · rintro ⟨x, hx, hqx⟩
      exact ⟨x, hl'.mem_iff.mp (List.mem_of_find?_eq_some hx), List.find?_some hx, hqx⟩
    · rintro ⟨x, hx, hpx, hqx⟩
      obtain ⟨y, hy⟩ := Option.isSome_iff_exists.mp (List.find?_isSome.mpr ⟨x, hl'.mem_iff.mpr hx, hpx⟩)
      have hmem : y ∈ l := hl'.mem_iff.mp (List.mem_of_find?_eq_some hy)
      exact ⟨y, hy, h ⟨x, hx, hpx, hqx⟩ y hmem (List.find?_some hy)⟩

end GoMap
