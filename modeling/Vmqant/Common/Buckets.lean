import Vmqant.Common.GoMap

/-!
# Buckets with an index

Elements lie in a list of buckets, and a map has an entry for the key of each of them, which names its
bucket: `place v p` is that the value `v` names the bucket `p`. `Indexed` says that the two fit together. It
is kept when an element with a new key is put at the end of a bucket (`Indexed.push`), and when elements are
taken out of a bucket and their keys out of the map (`Indexed.takeOut`); the elements that stay may change,
but for their keys.
-/

namespace Buckets

variable {β γ κ ν : Type}

/-! ## One bucket among the others -/

/-- Setting a bucket leaves the elements of the others. -/
theorem flatten_set_perm {bs : List (List β)} {p : ℕ} {l : List β} (hl : bs[p]? = some l) :
    ∃ rest, bs.flatten.Perm (l ++ rest) ∧ ∀ l', (bs.set p l').flatten.Perm (l' ++ rest) := by
  obtain ⟨hp, rfl⟩ := List.getElem?_eq_some_iff.mp hl
  have hset : ∀ l',
      (bs.set p l').flatten.Perm (l' ++ ((bs.take p).flatten ++ (bs.drop (p + 1)).flatten)) := by
    intro l'
    rw [List.set_eq_take_append_cons_drop, if_pos hp, List.flatten_append, List.flatten_cons]
    exact List.perm_append_comm_assoc _ _ _
  have hself := hset bs[p]
  rw [List.set_getElem_self] at hself
  exact ⟨_, hself, hset⟩

/-- An element comes to the end of a bucket. -/
theorem flatten_set_concat_perm {bs : List (List β)} {p : ℕ} {l : List β} (hl : bs[p]? = some l) (x : β) :
    (bs.set p (l ++ [x])).flatten.Perm (x :: bs.flatten) := by
  obtain ⟨rest, hperm, hset⟩ := flatten_set_perm hl
  refine (hset _).trans ?_
  rw [List.append_assoc, List.singleton_append]
  exact List.perm_middle.trans (hperm.symm.cons x)

/-- Elements are taken out of a bucket; `f` is what the others keep. -/
theorem flatten_map_perm_of_set {bs : List (List β)} {p : ℕ} {l kept : List β} (hl : bs[p]? = some l)
    {f : β → γ} {gone : List γ} (hkept : (l.map f).Perm (kept.map f ++ gone)) :
    (bs.flatten.map f).Perm ((bs.set p kept).flatten.map f ++ gone) := by
  obtain ⟨rest, hperm, hset⟩ := flatten_set_perm hl
  refine (hperm.map f).trans ?_
  rw [List.map_append]
  refine (hkept.append_right _).trans ?_
  refine .trans ?_ (((hset kept).map f).append_right gone).symm
  rw [List.map_append, List.append_assoc, List.append_assoc]
  exact List.perm_append_comm.append_left _

/-- What has none of the values that are gone is what stays, if no value occurs twice. -/
theorem perm_filter_not_mem [DecidableEq γ] {l kept gone : List β} {f : β → γ} (hperm : l.Perm (kept ++ gone))
    (hnodup : (l.map f).Nodup) : (l.filter fun x => f x ∉ gone.map f).Perm kept := by
  have hnodup' := (hperm.map f).nodup_iff.mp hnodup
  rw [List.map_append] at hnodup'
  have hdisjoint := List.disjoint_of_nodup_append hnodup'
  refine (hperm.filter _).trans ?_
  have hkept : (kept.filter fun x => f x ∉ gone.map f) = kept := by
    refine List.filter_eq_self.mpr fun x hx => ?_
    simpa only [decide_eq_true_eq] using hdisjoint (List.mem_map_of_mem hx)
  have hgone : (gone.filter fun x => f x ∉ gone.map f) = [] := by
    refine List.filter_eq_nil_iff.mpr fun x hx => ?_
    simpa only [decide_eq_true_eq, not_not] using List.mem_map_of_mem hx
  rw [List.filter_append, hkept, hgone, List.append_nil]

/-! ## The index -/

/-- No key occurs twice, the map has the keys of the elements and no other, and it names the bucket of each
element. -/
structure Indexed [DecidableEq κ] (key : β → κ) (place : ν → ℕ → Prop) (bs : List (List β))
    (m : AList fun _ : κ => ν) : Prop where
  nodup : (bs.flatten.map key).Nodup
  mem_keys : ∀ k, k ∈ m.keys ↔ k ∈ bs.flatten.map key
  lookup : ∀ p l, bs[p]? = some l → ∀ x ∈ l, ∃ v, m.lookup (key x) = some v ∧ place v p

variable [DecidableEq κ] {key : β → κ} {place : ν → ℕ → Prop} {bs : List (List β)} {m : AList fun _ : κ => ν}

/-- One entry for each element. -/
theorem Indexed.keys_perm (h : Indexed key place bs m) : m.keys.Perm (bs.flatten.map key) :=
  (List.perm_ext_iff_of_nodup m.keys_nodup h.nodup).mpr h.mem_keys

/-- An entry is that of an element, which is in the bucket it names. -/
theorem Indexed.exists_of_lookup (h : Indexed key place bs m) {k : κ} {v : ν} (hv : m.lookup k = some v) :
    ∃ p l x, place v p ∧ bs[p]? = some l ∧ x ∈ l ∧ key x = k := by
  have hkey : k ∈ m.keys := AList.mem_keys.mp (AList.lookup_isSome.mp (Option.isSome_of_eq_some hv))
  obtain ⟨x, hx, rfl⟩ := List.mem_map.mp ((h.mem_keys k).mp hkey)
  obtain ⟨l, hl, hxl⟩ := List.mem_flatten.mp hx
  obtain ⟨p, hp⟩ := List.mem_iff_getElem?.mp hl
  obtain ⟨w, hw, hplace⟩ := h.lookup p l hp x hxl
  obtain rfl : w = v := Option.some.inj (hw.symm.trans hv)
  exact ⟨p, l, x, hplace, hp, hxl, rfl⟩

theorem indexed_empty (n : ℕ) : Indexed key place (List.replicate n []) ∅ where
  nodup := by simp
  mem_keys k := by simp
  lookup p l hl x hx := by
    obtain rfl := List.eq_of_mem_replicate (List.mem_of_getElem? hl)
    exact absurd hx List.not_mem_nil

/-- An element with a new key comes to the end of a bucket. -/
theorem Indexed.push (h : Indexed key place bs m) {p : ℕ} {l : List β} (hl : bs[p]? = some l) {x : β}
    (hfresh : key x ∉ bs.flatten.map key) {v : ν} (hv : place v p) :
    Indexed key place (bs.set p (l ++ [x])) (m.insert (key x) v) := by
  have hkeys := (flatten_set_concat_perm hl x).map key
  rw [List.map_cons] at hkeys
  refine ⟨?_, fun k => ?_, fun q l' hl' y hy => ?_⟩
  · exact hkeys.nodup_iff.mpr (List.nodup_cons.mpr ⟨hfresh, h.nodup⟩)
  · rw [← AList.mem_keys, AList.mem_insert, AList.mem_keys, h.mem_keys, hkeys.mem_iff, List.mem_cons]
  · -- an element that was there has another key, and its entry stays
    have hold : ∀ l', bs[q]? = some l' → y ∈ l' →
        ∃ w, (m.insert (key x) v).lookup (key y) = some w ∧ place w q := by
      intro l' hl' hy
      have hmem : key y ∈ bs.flatten.map key :=
        List.mem_map_of_mem (List.mem_flatten.mpr ⟨l', List.mem_of_getElem? hl', hy⟩)
      have hne : key y ≠ key x := by
        intro heq
        exact hfresh (heq ▸ hmem)
      rw [AList.lookup_insert_ne hne]
      exact h.lookup q l' hl' y hy
    rw [List.getElem?_set] at hl'
    by_cases hpq : p = q
    · subst hpq
      rw [if_pos rfl, if_pos (List.getElem?_eq_some_iff.mp hl).1] at hl'
      obtain rfl := Option.some.inj hl'
      rcases List.mem_append.mp hy with hy | hy
      · exact hold l hl hy
      · obtain rfl := List.mem_singleton.mp hy
        exact ⟨v, AList.lookup_insert _, hv⟩
    · rw [if_neg hpq] at hl'
      exact hold l' hl' hy

/-- Elements are taken out of a bucket, and their keys out of the map. -/
theorem Indexed.takeOut (h : Indexed key place bs m) {p : ℕ} {l kept : List β} (hl : bs[p]? = some l)
    {gone : List κ} (hkept : (l.map key).Perm (kept.map key ++ gone)) :
    Indexed key place (bs.set p kept) (gone.foldl (fun m k => m.erase k) m) := by
  have hold := flatten_map_perm_of_set hl hkept
  have hnodup := hold.nodup_iff.mp h.nodup
  have hdisjoint := List.disjoint_of_nodup_append hnodup
  refine ⟨(List.nodup_append.mp hnodup).1, fun k => ?_, fun q l' hl' y hy => ?_⟩
  · rw [GoMap.mem_keys_foldl_erase, h.mem_keys, hold.mem_iff, List.mem_append]
    constructor
    · rintro ⟨hk | hk, hgone⟩
      · exact hk
      · exact absurd hk hgone
    · intro hk
      exact ⟨.inl hk, hdisjoint hk⟩
  · have hmem : key y ∈ (bs.set p kept).flatten.map key :=
      List.mem_map_of_mem (List.mem_flatten.mpr ⟨l', List.mem_of_getElem? hl', hy⟩)
    rw [GoMap.lookup_foldl_erase, if_neg (hdisjoint hmem)]
    rw [List.getElem?_set] at hl'
    by_cases hpq : p = q
    · -- the bucket had an element with the key
      subst hpq
      rw [if_pos rfl, if_pos (List.getElem?_eq_some_iff.mp hl).1] at hl'
      obtain rfl := Option.some.inj hl'
      have hkey : key y ∈ l.map key := hkept.mem_iff.mpr (List.mem_append_left gone (List.mem_map_of_mem hy))
      obtain ⟨x, hx, hxy⟩ := List.mem_map.mp hkey
      rw [← hxy]
      exact h.lookup p l hl x hx
    · rw [if_neg hpq] at hl'
      exact h.lookup q l' hl' y hy

end Buckets
