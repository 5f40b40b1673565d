import Vmqant.Common.GoMap

/-!
# A store with leases

A key-value store in which a key may be put with a lease. A lease that expires takes the keys with it that
were last put with it, and it never comes back.
-/

/-- Leases are numbers; those from `next` on have not been granted. -/
structure LeaseStore (κ ν : Type) where
  kvs : AList fun _ : κ => ν × Option ℕ
  alive : ℕ → Bool
  next : ℕ

namespace LeaseStore

variable {κ ν : Type} [DecidableEq κ]

def empty : LeaseStore κ ν := ⟨∅, fun _ => false, 0⟩

/-- The value of a key and the lease it was put with. -/
def get (s : LeaseStore κ ν) (k : κ) : Option (ν × Option ℕ) := s.kvs.lookup k

def put (s : LeaseStore κ ν) (k : κ) (v : ν) (lease : Option ℕ) : LeaseStore κ ν :=
  { s with kvs := s.kvs.insert k (v, lease) }

def delete (s : LeaseStore κ ν) (k : κ) : LeaseStore κ ν := { s with kvs := s.kvs.erase k }

omit [DecidableEq κ] in
/-- The lease that is granted is `next`. -/
def grant (s : LeaseStore κ ν) : LeaseStore κ ν :=
  { s with alive := Function.update s.alive s.next true, next := s.next + 1 }

omit [DecidableEq κ] in
def expire (s : LeaseStore κ ν) (l : ℕ) : LeaseStore κ ν :=
  { s with
    kvs := GoMap.filter s.kvs fun v => v.2 != some l
    alive := Function.update s.alive l false }

/-- The lease of a put is there, or there is none. -/
def Usable (s : LeaseStore κ ν) (lease : Option ℕ) : Prop := ∀ l, lease = some l → s.alive l = true

omit [DecidableEq κ] in
instance (s : LeaseStore κ ν) : DecidablePred s.Usable := fun
  | none => .isTrue nofun
  | some l => decidable_of_iff (s.alive l = true)
      ⟨fun h _ heq => Option.some.inj heq ▸ h, fun h => h l rfl⟩

/-- What a server does that is asked to put: with a lease that is not there it refuses. -/
def put? (s : LeaseStore κ ν) (k : κ) (v : ν) (lease : Option ℕ) : Option (LeaseStore κ ν) :=
  if s.Usable lease then some (s.put k v lease) else none

variable {s s' : LeaseStore κ ν} {k k' : κ} {v : ν} {lease : Option ℕ} {l l' : ℕ}

theorem put?_eq_some : s.put? k v lease = some s' ↔ s.Usable lease ∧ s' = s.put k v lease := by
  unfold put?
  split
  · next h => exact ⟨fun heq => ⟨h, (Option.some.inj heq).symm⟩, fun heq => congrArg some heq.2.symm⟩
  · next h => exact ⟨nofun, fun heq => absurd heq.1 h⟩

theorem get_put_self (s : LeaseStore κ ν) (k : κ) (v : ν) (lease : Option ℕ) :
    (s.put k v lease).get k = some (v, lease) := AList.lookup_insert _

theorem get_put_of_ne (h : k' ≠ k) : (s.put k v lease).get k' = s.get k' := AList.lookup_insert_ne h

theorem get_delete_self (s : LeaseStore κ ν) (k : κ) : (s.delete k).get k = none :=
  AList.lookup_erase k s.kvs

theorem get_delete_of_ne (h : k' ≠ k) : (s.delete k).get k' = s.get k' := AList.lookup_erase_ne h

/-- A key that was not put with the lease stays. -/
theorem get_expire_of_ne (h : s.get k = some (v, lease)) (hlease : lease ≠ some l) :
    (s.expire l).get k = some (v, lease) := by
  have hfilter : (s.expire l).get k = (s.get k).filter fun v => v.2 != some l := GoMap.lookup_filter _ _ _
  rw [hfilter, h]
  exact Option.filter_eq_some_iff.mpr ⟨rfl, bne_iff_ne.mpr hlease⟩

theorem put?_eq_none : s.put? k v lease = none ↔ ¬ s.Usable lease := by
  unfold put?
  rw [ite_eq_right_iff]
  exact forall_congr' fun _ => iff_false_intro nofun

omit [DecidableEq κ] in
theorem alive_expire_self (s : LeaseStore κ ν) (l : ℕ) : (s.expire l).alive l = false :=
  Function.update_self _ _ _

omit [DecidableEq κ] in
theorem alive_expire_of_ne (h : l' ≠ l) : (s.expire l).alive l' = s.alive l' :=
  Function.update_of_ne h _ _

omit [DecidableEq κ] in
theorem usable_expire : (s.expire l).Usable lease ↔ s.Usable lease ∧ lease ≠ some l := by
  constructor
  · intro h
    have hne : lease ≠ some l := by
      rintro rfl
      have hl := h l rfl
      rw [alive_expire_self] at hl
      cases hl
    refine ⟨?_, hne⟩
    rintro l' rfl
    exact alive_expire_of_ne (fun hl => hne (congrArg some hl)) ▸ h l' rfl
  · rintro ⟨h, hne⟩ l' rfl
    exact (alive_expire_of_ne fun hl => hne (congrArg some hl)).trans (h l' rfl)

omit [DecidableEq κ] in
/-- A lease that was granted before is not the new one. -/
theorem usable_grant (h : ∀ l, lease = some l → l < s.next) : s.grant.Usable lease ↔ s.Usable lease := by
  refine forall₂_congr fun l heq => ?_
  rw [show s.grant.alive l = s.alive l from Function.update_of_ne (h l heq).ne _ _]

omit [DecidableEq κ] in
theorem usable_grant_next : s.grant.Usable (some s.next) := by
  intro l hl
  obtain rfl := Option.some.inj hl
  exact Function.update_self _ _ _

/-! ## Many keys -/

/-- The entries are put one after the other, with the same lease. -/
def putAll (s : LeaseStore κ ν) (kvs : List (κ × ν)) (lease : Option ℕ) : LeaseStore κ ν :=
  kvs.foldl (fun s kv => s.put kv.1 kv.2 lease) s

def deleteAll (s : LeaseStore κ ν) (ks : List κ) : LeaseStore κ ν := ks.foldl delete s

variable {kvs : List (κ × ν)} {ks : List κ}

theorem get_putAll_of_not_mem (h : k ∉ kvs.map Prod.fst) : (s.putAll kvs lease).get k = s.get k := by
  induction kvs generalizing s with
  | nil => rfl
  | cons kv kvs ih =>
    obtain ⟨hne, hnot⟩ := not_or.mp (List.mem_cons.not.mp h)
    exact (ih hnot).trans (get_put_of_ne hne)

/-- A key has one of the values that were put, or the one that it had, if it was not put. -/
theorem get_putAll (s : LeaseStore κ ν) (kvs : List (κ × ν)) (lease : Option ℕ) (k : κ) :
    (∃ v, (k, v) ∈ kvs ∧ (s.putAll kvs lease).get k = some (v, lease)) ∨
      (k ∉ kvs.map Prod.fst ∧ (s.putAll kvs lease).get k = s.get k) := by
  by_cases hmem : k ∈ kvs.map Prod.fst
  · left
    induction kvs generalizing s with
    | nil => cases hmem
    | cons kv kvs ih =>
      by_cases hlater : k ∈ kvs.map Prod.fst
      · obtain ⟨v, hv, hget⟩ := ih (s.put kv.1 kv.2 lease) hlater
        exact ⟨v, List.mem_cons_of_mem _ hv, hget⟩
      · obtain rfl : k = kv.1 := (List.mem_cons.mp hmem).resolve_right hlater
        refine ⟨kv.2, List.mem_cons_self, ?_⟩
        exact (get_putAll_of_not_mem hlater).trans (get_put_self s kv.1 kv.2 lease)
  · exact .inr ⟨hmem, get_putAll_of_not_mem hmem⟩

theorem get_deleteAll (s : LeaseStore κ ν) (ks : List κ) (k : κ) :
    (k ∈ ks ∧ (s.deleteAll ks).get k = none) ∨ (k ∉ ks ∧ (s.deleteAll ks).get k = s.get k) := by
  induction ks generalizing s with
  | nil => exact .inr ⟨List.not_mem_nil, rfl⟩
  | cons k' ks ih =>
    rcases ih (s.delete k') with ⟨hmem, hget⟩ | ⟨hnot, hget⟩
    · exact .inl ⟨List.mem_cons_of_mem _ hmem, hget⟩
    · by_cases hk : k = k'
      · subst hk
        exact .inl ⟨List.mem_cons_self, hget.trans (get_delete_self s k)⟩
      · exact .inr ⟨List.not_mem_cons_of_ne_of_not_mem hk hnot, hget.trans (get_delete_of_ne hk)⟩

end LeaseStore
