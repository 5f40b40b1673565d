import Vmqant.Registry.Etcdv3Registry

/-!
# What `GetService` returns

The query is answered by the entries of the store below the path, in an order that depends on nothing but the
entries, and the loop puts the nodes of each value into the service with its version: none is lost, and none
comes twice.
-/

namespace Vmqant.Registry.Etcdv3

open Path (Text)

variable {ν : Type}

/-! ## The query -/

section Query

variable {etcd etcd' : LeaseStore Key ν} {path : Key}

theorem mem_query {kv : (_ : Key) × ν × Option ℕ} :
    kv ∈ query etcd path ↔ path <+: kv.1 ∧ etcd.get kv.1 = some kv.2 := by
  unfold query
  rw [List.mem_insertionSort, List.mem_filter, List.isPrefixOf_iff_prefix, and_comm]
  exact and_congr_right' AList.mem_lookup_iff.symm

theorem nodupKeys_query (etcd : LeaseStore Key ν) (path : Key) : (query etcd path).NodupKeys :=
  (List.perm_nodupKeys (List.perm_insertionSort _ _)).mpr (etcd.kvs.nodupKeys.sublist List.filter_sublist)

theorem pairwise_query (etcd : LeaseStore Key ν) (path : Key) :
    (query etcd path).Pairwise fun a b => b.1 ≤ a.1 := by
  have _ : Std.Total fun a b : (_ : Key) × ν × Option ℕ => b.1 ≤ a.1 := ⟨fun a b => le_total b.1 a.1⟩
  have _ : IsTrans ((_ : Key) × ν × Option ℕ) fun a b => b.1 ≤ a.1 :=
    ⟨fun a b c hab hbc => hbc.trans hab⟩
  exact List.pairwise_insertionSort _ _

/-- Stores that agree below the path give the same answer. -/
theorem query_congr (h : ∀ k, path <+: k → etcd.get k = etcd'.get k) :
    query etcd path = query etcd' path := by
  have hmem : ∀ kv, kv ∈ query etcd path ↔ kv ∈ query etcd' path := by
    intro kv
    rw [mem_query, mem_query]
    exact and_congr_right fun hk => by rw [h kv.1 hk]
  have hperm : (query etcd path).Perm (query etcd' path) :=
    (List.perm_ext_iff_of_nodup (nodupKeys_query _ _).nodup (nodupKeys_query _ _).nodup).mpr hmem
  refine hperm.eq_of_pairwise (fun a b ha hb hle hle' => ?_) (pairwise_query _ _) (pairwise_query _ _)
  have hkey : a.1 = b.1 := le_antisymm hle' hle
  obtain ⟨k, v⟩ := a
  obtain ⟨k', v'⟩ := b
  obtain rfl : k = k' := hkey
  have hv : v = v' :=
    Option.some.inj ((mem_query.mp ha).2.symm.trans (mem_query.mp ((hmem _).mpr hb)).2)
  rw [hv]

theorem mem_keys_query {k : Key} : k ∈ (query etcd path).keys ↔ path <+: k ∧ etcd.get k ≠ none := by
  rw [List.mem_keys, Option.ne_none_iff_exists']
  simp only [mem_query, exists_and_left]

/-- A store with one more key below the path gives a longer answer. -/
theorem length_query_lt (hsub : ∀ k, path <+: k → etcd.get k ≠ none → etcd'.get k ≠ none) {k : Key}
    (hk : path <+: k) (hnone : etcd.get k = none) (hsome : etcd'.get k ≠ none) :
    (query etcd path).length < (query etcd' path).length := by
  have hnodup : (k :: (query etcd path).keys).Nodup :=
    List.nodup_cons.mpr ⟨fun hmem => (mem_keys_query.mp hmem).2 hnone, nodupKeys_query _ _⟩
  have hsubset : k :: (query etcd path).keys ⊆ (query etcd' path).keys := by
    intro k' hk'
    rcases List.mem_cons.mp hk' with rfl | hk'
    · exact mem_keys_query.mpr ⟨hk, hsome⟩
    · obtain ⟨hpath, hget⟩ := mem_keys_query.mp hk'
      exact mem_keys_query.mpr ⟨hpath, hsub k' hpath hget⟩
  have hle := (List.subperm_of_subset hnodup hsubset).length_le
  simpa [List.keys] using hle

end Query

/-! ## The loop -/

/-- The nodes of a service, with its version. -/
def versioned (s : Service) : List (String × Node) := s.nodes.map fun node => (s.version, node)

section Loop

variable {m : AList fun _ : String => Service} {sn : Service} {sns : List Service}

def services (m : AList fun _ : String => Service) : List Service := m.entries.map Sigma.snd

/-- Each service is stored under its version. -/
def ByVersion (m : AList fun _ : String => Service) : Prop := ∀ v s, m.lookup v = some s → s.version = v

theorem byVersion_add (h : ByVersion m) (sn : Service) : ByVersion (add m sn) := by
  intro v s hs
  unfold add at hs
  dsimp only at hs
  rw [GoMap.lookup_insert] at hs
  split at hs
  · next hv =>
    obtain rfl := Option.some.inj hs
    cases hlookup : m.lookup sn.version with
    | none => exact hv.symm
    | some s => exact (h _ s hlookup).trans hv.symm
  · exact h v s hs

theorem flatMap_versioned_add (h : ByVersion m) (sn : Service) :
    ((services (add m sn)).flatMap versioned).Perm ((services m).flatMap versioned ++ versioned sn) := by
  unfold services add
  dsimp only
  cases hlookup : m.lookup sn.version with
  | none =>
    rw [AList.entries_insert_of_notMem (AList.lookup_eq_none.mp hlookup)]
    exact List.perm_append_comm
  | some s =>
    have hversion : s.version = sn.version := h _ s hlookup
    have hnodes : versioned { s with nodes := s.nodes ++ sn.nodes } = versioned s ++ versioned sn := by
      unfold versioned
      rw [List.map_append, hversion]
    have hperm := (GoMap.perm_cons_erase hlookup).map Sigma.snd |>.flatMap_right versioned
    rw [AList.entries_insert]
    rw [List.map_cons, List.flatMap_cons] at hperm ⊢
    refine List.Perm.trans ?_ (hperm.symm.append_right _)
    rw [Option.getD_some, hnodes, List.append_assoc, List.append_assoc]
    exact List.perm_append_comm.append_left _

theorem foldl_merge (decode : ν → Option Service) (values : List ν) (m : AList fun _ : String => Service) :
    values.foldl (merge decode) m = (values.filterMap decode).foldl add m := by
  induction values generalizing m with
  | nil => rfl
  | cons value values ih =>
    rw [List.foldl_cons, ih]
    unfold merge
    cases hdecode : decode value with
    | none => rw [List.filterMap_cons_none hdecode]
    | some sn => rw [List.filterMap_cons_some hdecode, List.foldl_cons]

theorem foldl_add (h : ByVersion m) (sns : List Service) :
    ByVersion (sns.foldl add m) ∧
      ((services (sns.foldl add m)).flatMap versioned).Perm
        ((services m).flatMap versioned ++ sns.flatMap versioned) := by
  induction sns generalizing m with
  | nil => exact ⟨h, by simp⟩
  | cons sn sns ih =>
    obtain ⟨hversion, hperm⟩ := ih (byVersion_add h sn)
    refine ⟨hversion, hperm.trans ?_⟩
    rw [List.flatMap_cons, ← List.append_assoc]
    exact (flatMap_versioned_add h sn).append_right _

theorem name_foldl_add {name : String} (h : ∀ v s, m.lookup v = some s → s.name = name)
    (hsns : ∀ sn ∈ sns, sn.name = name) :
    ∀ v s, (sns.foldl add m).lookup v = some s → s.name = name := by
  induction sns generalizing m with
  | nil => exact h
  | cons sn sns ih =>
    refine ih (fun v s hs => ?_) fun sn' hsn' => hsns sn' (List.mem_cons_of_mem _ hsn')
    unfold add at hs
    dsimp only at hs
    rw [GoMap.lookup_insert] at hs
    split at hs
    · obtain rfl := Option.some.inj hs
      cases hlookup : m.lookup sn.version with
      | none => exact hsns sn List.mem_cons_self
      | some s => exact h _ s hlookup
    · exact h v s hs

theorem nodup_versions (h : ByVersion m) : ((services m).map Service.version).Nodup := by
  have hkeys : (services m).map Service.version = m.keys := by
    unfold services AList.keys List.keys
    rw [List.map_map]
    refine List.map_congr_left fun e he => ?_
    exact h e.1 e.2 (AList.mem_lookup_iff.mpr he)
  rw [hkeys]
  exact m.nodupKeys

end Loop

/-! ## The result -/

section Result

variable {decode : ν → Option Service} {kvs : List ((_ : Key) × ν × Option ℕ)}

/-- The services that are decoded. -/
def decoded (decode : ν → Option Service) (kvs : List ((_ : Key) × ν × Option ℕ)) : List Service :=
  (kvs.map fun kv => kv.2.1).filterMap decode

theorem length_decoded (h : ∀ kv ∈ kvs, ∃ sn, decode kv.2.1 = some sn ∧ sn.nodes.length = 1) :
    ((decoded decode kvs).flatMap versioned).length = kvs.length := by
  induction kvs with
  | nil => rfl
  | cons kv kvs ih =>
    obtain ⟨sn, hdecode, hlen⟩ := h kv List.mem_cons_self
    have hcons : decoded decode (kv :: kvs) = sn :: decoded decode kvs := List.filterMap_cons_some hdecode
    rw [hcons, List.flatMap_cons, List.length_append, ih fun kv' hkv' => h kv' (List.mem_cons_of_mem _ hkv')]
    rw [versioned, List.length_map, hlen, List.length_cons, Nat.add_comm]

/-- The nodes of a result, with their versions. -/
def nodesOf : Except String (Multiset Service) → Multiset (String × Node)
  | .error _ => 0
  | .ok services => services.bind fun s => versioned s

theorem byVersion_empty : ByVersion ∅ := nofun

theorem nodesOf_getService (decode : ν → Option Service) (kvs : List ((_ : Key) × ν × Option ℕ)) :
    nodesOf (getService decode (.ok kvs)) = (decoded decode kvs).flatMap versioned := by
  unfold getService
  dsimp only
  split
  · next h =>
    subst h
    rfl
  · unfold nodesOf
    dsimp only
    rw [Multiset.coe_bind, foldl_merge]
    exact Multiset.coe_eq_coe.mpr (foldl_add byVersion_empty _).2

theorem getService_ok {result : Multiset Service} (h : getService decode (.ok kvs) = .ok result) :
    kvs ≠ [] ∧ result = services ((decoded decode kvs).foldl add ∅) := by
  unfold getService at h
  dsimp only at h
  split at h
  · cases h
  · next hne =>
    refine ⟨hne, ?_⟩
    rw [foldl_merge] at h
    exact (Except.ok.inj h).symm

end Result

end Vmqant.Registry.Etcdv3
