import Vmqant.Registry.Etcdv3Calls
import Vmqant.Registry.GetService

/-!
# Services of different names

`GetService` asks for the keys below the path of the name, and the path is made of the name by replacing the
slashes and joining: two names may have one path, and a name or an id such as `..` leads out of it.
`isolated_iff` says exactly when the answer depends on nothing but the nodes of the name.
-/

namespace Vmqant.Registry.Etcdv3

open Lts

variable {η ν : Type} {hash : Service → η} {encode : Service → ν} {decode : ν → Option Service}

/-! ## Isolation -/

/-- The result has the nodes that are registered under the name, each once and with its version; there is one
service for each version, and it has the name. -/
structure Exact (ss : List Service) (name : String) (result : Except String (Multiset Service)) : Prop where
  nodes : nodesOf result = (ss.filter fun s => s.name = name).flatMap versioned
  names : ∀ services, result = .ok services → ∀ s ∈ services, s.name = name
  versions : ∀ services, result = .ok services → (services.map Service.version).Nodup

/-- `GetService` of the name is right after the services `ss` have been registered, and it does not change
when one of them, or one of `others`, is registered or deregistered under another name. -/
structure Isolated [DecidableEq η] (hash : Service → η) (encode : Service → ν) (decode : ν → Option Service)
    (ss : List Service) (others : Set Service) (name : String) (st : State η ν) : Prop where
  exact : Exact ss name (servicesOf decode st.etcd name)
  register : ∀ t, t ∈ ss ∨ t ∈ others → t.name ≠ name → ∀ ttl st',
    Completes hash encode st (.register t ttl) st' →
      servicesOf decode st'.etcd name = servicesOf decode st.etcd name
  deregister : ∀ t, t ∈ ss ∨ t ∈ others → t.name ≠ name → ∀ st',
    Completes hash encode st (.deregister t) st' →
      servicesOf decode st'.etcd name = servicesOf decode st.etcd name

/-- What `GetService` asks for. -/
def below (name : String) : Key := servicePath name ++ ['/']

/-- The keys of the nodes of the name are below its path, and different; those of other names are not below
it. -/
structure Separate (ss : List Service) (others : Set Service) (name : String) : Prop where
  within : ∀ s ∈ ss, s.name = name → ∀ node ∈ s.nodes, below name <+: key s node
  distinct : ((ss.filter fun s => s.name = name).flatMap fun s => s.nodes.map (key s)).Nodup
  apart : ∀ t, t ∈ ss ∨ t ∈ others → t.name ≠ name → ∀ node ∈ t.nodes, ¬ below name <+: key t node

/-! ## The store after the services have been registered -/

/-- The services `ss` have been registered without TTL, and nothing else. -/
structure Populated (hash : Service → η) (encode : Service → ν) (ss : List Service) (st : State η ν) :
    Prop where
  pc : st.pc = .idle
  leases : ∀ name, st.leases name = none
  register : ∀ name h, st.register name = some h → ∃ s ∈ ss, s.name = name ∧ hash s = h
  present : ∀ s ∈ ss, ∀ node ∈ s.nodes, st.etcd.get (key s node) ≠ none
  stored : ∀ k v, st.etcd.get k = some v →
    ∃ s ∈ ss, ∃ node ∈ s.nodes, key s node = k ∧ v.1 = encode (single s node)

theorem populated_start : Populated hash encode [] (start LeaseStore.empty) :=
  ⟨rfl, fun _ => rfl, nofun, nofun, nofun⟩

/-! ## What is below the path -/

section Separate

variable {st : State η ν} {ss : List Service} {others : Set Service} {name : String}

/-- What is put for the nodes of the name. -/
def placed (ss : List Service) (name : String) : List (Key × Service) :=
  (ss.filter fun s => s.name = name).flatMap fun s => s.nodes.map fun node => (key s node, single s node)

theorem mem_placed {p : Key × Service} :
    p ∈ placed ss name ↔ ∃ s ∈ ss, s.name = name ∧ ∃ node ∈ s.nodes, p = (key s node, single s node) := by
  unfold placed
  rw [List.mem_flatMap]
  constructor
  · rintro ⟨s, hs, hp⟩
    obtain ⟨hs, hname⟩ := List.mem_filter.mp hs
    obtain ⟨node, hnode, rfl⟩ := List.mem_map.mp hp
    exact ⟨s, hs, of_decide_eq_true hname, node, hnode, rfl⟩
  · rintro ⟨s, hs, hname, node, hnode, rfl⟩
    exact ⟨s, List.mem_filter.mpr ⟨hs, decide_eq_true hname⟩, List.mem_map_of_mem hnode⟩

theorem map_fst_placed (ss : List Service) (name : String) :
    (placed ss name).map Prod.fst
      = (ss.filter fun s => s.name = name).flatMap fun s => s.nodes.map (key s) := by
  unfold placed
  simp only [List.map_flatMap, List.map_map, Function.comp_def]

theorem flatMap_versioned_placed (ss : List Service) (name : String) :
    ((placed ss name).map Prod.snd).flatMap versioned
      = (ss.filter fun s => s.name = name).flatMap versioned := by
  have hsingle : ∀ s : Service, (s.nodes.map (single s)).flatMap versioned = versioned s := by
    intro s
    rw [List.flatMap_map]
    exact List.flatMap_pure_eq_map _ _
  unfold placed
  simp only [List.map_flatMap, List.map_map, Function.comp_def, List.flatMap_assoc, hsingle]

/-- Below the path there is what has been put for the name, and nothing else. -/
theorem perm_query (h : Populated hash encode ss st) (hsep : Separate ss others name) :
    ((query st.etcd (below name)).map fun kv => (kv.1, kv.2.1)).Perm
      ((placed ss name).map fun p => (p.1, encode p.2)) := by
  have hkeys : ((placed ss name).map Prod.fst).Nodup := map_fst_placed ss name ▸ hsep.distinct
  have hnodup : ((query st.etcd (below name)).map fun kv => (kv.1, kv.2.1)).Nodup := by
    refine List.Nodup.of_map Prod.fst ?_
    rw [List.map_map]
    exact nodupKeys_query st.etcd (below name)
  have hnodup' : ((placed ss name).map fun p => (p.1, encode p.2)).Nodup := by
    refine List.Nodup.of_map Prod.fst ?_
    rw [List.map_map]
    exact hkeys
  refine (List.perm_ext_iff_of_nodup hnodup hnodup').mpr fun p => ?_
  -- what is stored below the path belongs to the name
  have hbelow : ∀ k v, below name <+: k → st.etcd.get k = some v →
      ∃ p ∈ placed ss name, p.1 = k ∧ v.1 = encode p.2 := by
    intro k v hk hget
    obtain ⟨s, hs, node, hnode, hkey, hv⟩ := h.stored k v hget
    have hname : s.name = name := by
      by_contra hname
      exact hsep.apart s (.inl hs) hname node hnode (hkey ▸ hk)
    exact ⟨(key s node, single s node), mem_placed.mpr ⟨s, hs, hname, node, hnode, rfl⟩, hkey, hv⟩
  constructor
  · intro hp
    obtain ⟨⟨k, v⟩, hkv, rfl⟩ := List.mem_map.mp hp
    obtain ⟨hk, hget⟩ := mem_query.mp hkv
    obtain ⟨q, hq, rfl, hv⟩ := hbelow k v hk hget
    exact List.mem_map.mpr ⟨q, hq, Prod.ext rfl hv.symm⟩
  · intro hp
    obtain ⟨q, hq, rfl⟩ := List.mem_map.mp hp
    obtain ⟨s, hs, hname, node, hnode, rfl⟩ := mem_placed.mp hq
    have hk := hsep.within s hs hname node hnode
    obtain ⟨v, hget⟩ := Option.ne_none_iff_exists'.mp (h.present s hs node hnode)
    obtain ⟨q, hq', hkey, hv⟩ := hbelow _ v hk hget
    -- the key was put once
    obtain rfl : q = (key s node, single s node) := List.inj_on_of_nodup_map hkeys hq' hq hkey
    exact List.mem_map.mpr ⟨⟨key s node, v⟩, mem_query.mpr ⟨hk, hget⟩, Prod.ext rfl hv⟩

/-- The values of single nodes are decoded to what was encoded. -/
def Decodes (encode : Service → ν) (decode : ν → Option Service) (S : Set Service) : Prop :=
  ∀ s ∈ S, ∀ node ∈ s.nodes, decode (encode (single s node)) = some (single s node)

theorem perm_decoded (h : Populated hash encode ss st) (hsep : Separate ss others name)
    (hdecode : Decodes encode decode {s | s ∈ ss}) :
    (decoded decode (query st.etcd (below name))).Perm ((placed ss name).map Prod.snd) := by
  have hperm := ((perm_query h hsep).map Prod.snd).filterMap decode
  rw [List.map_map, List.map_map] at hperm
  refine hperm.trans (List.Perm.of_eq ?_)
  rw [List.filterMap_map, ← List.filterMap_eq_map]
  refine List.filterMap_congr fun p hp => ?_
  obtain ⟨s, hs, -, node, hnode, rfl⟩ := mem_placed.mp hp
  exact hdecode s hs node hnode

theorem exact_of_separate (h : Populated hash encode ss st) (hsep : Separate ss others name)
    (hdecode : Decodes encode decode {s | s ∈ ss}) : Exact ss name (servicesOf decode st.etcd name) := by
  have hperm := perm_decoded h hsep hdecode
  refine ⟨?_, fun result hresult => ?_, fun result hresult => ?_⟩
  · unfold servicesOf
    rw [nodesOf_getService, ← flatMap_versioned_placed]
    exact Multiset.coe_eq_coe.mpr (hperm.flatMap_right versioned)
  · obtain ⟨-, rfl⟩ := getService_ok hresult
    have hnames : ∀ sn ∈ decoded decode (query st.etcd (below name)), sn.name = name := by
      intro sn hsn
      obtain ⟨p, hp, rfl⟩ := List.mem_map.mp (hperm.mem_iff.mp hsn)
      obtain ⟨s, -, hname, node, -, rfl⟩ := mem_placed.mp hp
      exact hname
    have hempty : ∀ v s, (∅ : AList fun _ : String => Service).lookup v = some s → s.name = name := nofun
    intro s hs
    obtain ⟨e, he, rfl⟩ := List.mem_map.mp (Multiset.mem_coe.mp hs)
    exact name_foldl_add hempty hnames e.1 e.2 (AList.mem_lookup_iff.mpr he)
  · obtain ⟨-, rfl⟩ := getService_ok hresult
    exact nodup_versions (foldl_add byVersion_empty _).1

end Separate

/-! ## Calls -/

section Calls

variable [DecidableEq η] {st st' : State η ν} {ss : List Service} {others : Set Service} {name : String}
  {s : Service}

theorem map_fst_entry (s : Service) : (s.nodes.map (entry encode s)).map Prod.fst = s.nodes.map (key s) :=
  List.map_map

/-- What `Register` has put is one of the entries of the service, under one of its keys. -/
theorem get_putAll_entry (etcd : LeaseStore Key ν) (s : Service) (lease : Option ℕ) (k : Key) :
    let etcd' := etcd.putAll (s.nodes.map (entry encode s)) lease
    (∃ node ∈ s.nodes, key s node = k ∧ etcd'.get k = some (encode (single s node), lease)) ∨
      (k ∉ s.nodes.map (key s) ∧ etcd'.get k = etcd.get k) := by
  rcases LeaseStore.get_putAll etcd (s.nodes.map (entry encode s)) lease k with ⟨v, hv, hget⟩ | ⟨hnot, hget⟩
  · obtain ⟨node, hnode, heq⟩ := List.mem_map.mp hv
    obtain ⟨rfl, rfl⟩ := Prod.mk.inj heq
    exact .inl ⟨node, hnode, rfl, hget⟩
  · exact .inr ⟨map_fst_entry s ▸ hnot, hget⟩

/-- What `Register` leaves under a key. -/
theorem get_registerResult (hash : Service → η) (encode : Service → ν) (st : State η ν) (s : Service)
    (ttl : ℤ) (k : Key) :
    let etcd' := (registerResult hash encode st s ttl).etcd
    (∃ node ∈ s.nodes, key s node = k ∧ ∃ lease, etcd'.get k = some (encode (single s node), lease)) ∨
      ((k ∉ s.nodes.map (key s) ∨ st.register s.name = some (hash s)) ∧ etcd'.get k = st.etcd.get k) := by
  unfold registerResult
  split
  · next hnodes =>
    rw [hnodes]
    exact .inr ⟨.inl List.not_mem_nil, rfl⟩
  · split
    · next hskip => exact .inr ⟨.inr hskip, rfl⟩
    · split
      · rcases get_putAll_entry st.etcd.grant s (some st.etcd.next) k with ⟨node, hnode, hkey, hget⟩ | h
        · exact .inl ⟨node, hnode, hkey, _, hget⟩
        · exact .inr ⟨.inl h.1, h.2⟩
      · rcases get_putAll_entry st.etcd s none k with ⟨node, hnode, hkey, hget⟩ | h
        · exact .inl ⟨node, hnode, hkey, _, hget⟩
        · exact .inr ⟨.inl h.1, h.2⟩

/-- A service whose hash is cached is one that has been registered, so its keys are there in any case. -/
theorem Populated.present_registerResult (h : Populated hash encode ss st)
    (hhash : ∀ s' ∈ ss, hash s' = hash s → s' = s) (ttl : ℤ) :
    ∀ node ∈ s.nodes, (registerResult hash encode st s ttl).etcd.get (key s node) ≠ none := by
  intro node hnode
  rcases get_registerResult hash encode st s ttl (key s node)
    with ⟨_, _, _, lease, hget⟩ | ⟨hkeep, hget⟩
  · exact hget ▸ Option.some_ne_none _
  · rcases hkeep with hnot | hskip
    · exact absurd (List.mem_map_of_mem hnode) hnot
    · obtain ⟨s', hs', -, heq⟩ := h.register _ _ hskip
      obtain rfl := hhash s' hs' heq
      exact hget ▸ h.present s' hs' node hnode

theorem Populated.stored_registerResult (h : Populated hash encode ss st) (s : Service) (ttl : ℤ) (k : Key)
    (v : ν × Option ℕ) (hv : (registerResult hash encode st s ttl).etcd.get k = some v) :
    ∃ s' ∈ ss ++ [s], ∃ node ∈ s'.nodes, key s' node = k ∧ v.1 = encode (single s' node) := by
  rcases get_registerResult hash encode st s ttl k with ⟨node, hnode, hkey, lease, hget⟩ | ⟨-, hget⟩
  · obtain rfl := Option.some.inj (hget.symm.trans hv)
    exact ⟨s, by simp, node, hnode, hkey, rfl⟩
  · obtain ⟨s', hs', hnode⟩ := h.stored k v (hget.symm.trans hv)
    exact ⟨s', List.mem_append_left _ hs', hnode⟩

theorem registerResult_zero (hash : Service → η) (encode : Service → ν) (st : State η ν) (s : Service) :
    let st' := registerResult hash encode st s 0
    st'.pc = .idle ∧ st'.leases = st.leases ∧
      (st'.register = st.register ∨ st'.register = Function.update st.register s.name (some (hash s))) := by
  unfold registerResult
  split
  · exact ⟨rfl, rfl, .inl rfl⟩
  · split
    · exact ⟨rfl, rfl, .inl rfl⟩
    · exact ⟨rfl, rfl, .inr rfl⟩

theorem Populated.snoc (h : Populated hash encode ss st) (hhash : ∀ s' ∈ ss, hash s' = hash s → s' = s) :
    Populated hash encode (ss ++ [s]) (registerResult hash encode st s 0) := by
  obtain ⟨hpc, hleases, hregister⟩ := registerResult_zero hash encode st s
  refine ⟨hpc, fun name => hleases ▸ h.leases name, fun name hs hcached => ?_, fun s' hs' => ?_,
    h.stored_registerResult s 0⟩
  · rcases hregister with hregister | hregister
    · rw [hregister] at hcached
      obtain ⟨s', hs', hname⟩ := h.register name hs hcached
      exact ⟨s', List.mem_append_left _ hs', hname⟩
    · rw [hregister, Function.update_apply] at hcached
      split at hcached
      · next hname => exact ⟨s, by simp, hname.symm, Option.some.inj hcached⟩
      · obtain ⟨s', hs', hname⟩ := h.register name hs hcached
        exact ⟨s', List.mem_append_left _ hs', hname⟩
  · rcases List.mem_append.mp hs' with hs' | hs'
    · intro node hnode
      rcases get_registerResult hash encode st s 0 (key s' node)
        with ⟨_, _, _, lease, hget⟩ | ⟨-, hget⟩
      · exact hget ▸ Option.some_ne_none _
      · exact hget ▸ h.present s' hs' node hnode
    · obtain rfl := List.mem_singleton.mp hs'
      exact h.present_registerResult hhash 0

theorem Populated.append (h : Populated hash encode ss st) {ss' : List Service}
    (hhash : Set.InjOn hash {s | s ∈ ss ++ ss'}) (hall : RegistersAll hash encode st ss' st') :
    Populated hash encode (ss ++ ss') st' := by
  induction ss' generalizing ss st with
  | nil =>
    obtain rfl : st' = st := hall
    rwa [List.append_nil]
  | cons s ss' ih =>
    obtain ⟨st₁, hfirst, hrest⟩ := hall
    obtain rfl : registerResult hash encode st s 0 = st₁ :=
      (completes_register h.pc (h.leases s.name) 0).unique hfirst
    have hsnoc := h.snoc (s := s) fun s' hs' heq =>
      hhash (List.mem_append_left _ hs') (List.mem_append_right _ List.mem_cons_self) heq
    have heq : ss ++ s :: ss' = ss ++ [s] ++ ss' := by simp
    rw [heq] at hhash ⊢
    exact ih hsnoc hhash hrest

/-- A call that leaves the keys below the path as they are does not change the result. -/
theorem servicesOf_congr {etcd etcd' : LeaseStore Key ν}
    (h : ∀ k, below name <+: k → etcd'.get k = etcd.get k) :
    servicesOf decode etcd' name = servicesOf decode etcd name := by
  have hquery : query etcd' (below name) = query etcd (below name) := query_congr h
  unfold servicesOf
  exact congrArg (fun kvs => getService decode (.ok kvs)) hquery

omit [DecidableEq η] in
theorem get_deregisterResult (st : State η ν) (s : Service) (k : Key) :
    let etcd' := (deregisterResult st s).etcd
    (k ∈ s.nodes.map (key s) ∧ etcd'.get k = none) ∨
      (k ∉ s.nodes.map (key s) ∧ etcd'.get k = st.etcd.get k) := by
  unfold deregisterResult
  split
  · next hnodes =>
    rw [hnodes]
    exact .inr ⟨List.not_mem_nil, rfl⟩
  · exact LeaseStore.get_deleteAll st.etcd _ k

theorem isolated_of_separate (h : Populated hash encode ss st) (hsep : Separate ss others name)
    (hdecode : Decodes encode decode {s | s ∈ ss}) : Isolated hash encode decode ss others name st := by
  have hnot : ∀ t, t ∈ ss ∨ t ∈ others → t.name ≠ name → ∀ k, below name <+: k → k ∉ t.nodes.map (key t) := by
    intro t ht hname k hk hmem
    obtain ⟨node, hnode, rfl⟩ := List.mem_map.mp hmem
    exact hsep.apart t ht hname node hnode hk
  refine ⟨exact_of_separate h hsep hdecode, fun t ht hname ttl st' hst' => ?_, fun t ht hname st' hst' => ?_⟩
  · obtain rfl : registerResult hash encode st t ttl = st' :=
      (completes_register h.pc (h.leases t.name) ttl).unique hst'
    refine servicesOf_congr fun k hk => ?_
    rcases get_registerResult hash encode st t ttl k with ⟨node, hnode, hkey, -⟩ | ⟨-, hget⟩
    · exact absurd (hkey ▸ List.mem_map_of_mem hnode) (hnot t ht hname k hk)
    · exact hget
  · obtain rfl : deregisterResult st t = st' := (completes_deregister h.pc t).unique hst'
    refine servicesOf_congr fun k hk => ?_
    rcases get_deregisterResult st t k with ⟨hmem, -⟩ | ⟨-, hget⟩
    · exact absurd hmem (hnot t ht hname k hk)
    · exact hget


/-! ## When the names are not separate -/

/-- What is stored, as far as it was put for one of the services, is decoded to one node. -/
theorem length_servicesOf (etcd : LeaseStore Key ν) (name : String) {S : Set Service}
    (hdecode : Decodes encode decode S)
    (hstored : ∀ k v, etcd.get k = some v → ∃ s ∈ S, ∃ node ∈ s.nodes, v.1 = encode (single s node)) :
    (nodesOf (servicesOf decode etcd name)).card = (query etcd (below name)).length := by
  unfold servicesOf
  rw [nodesOf_getService, Multiset.coe_card]
  refine length_decoded fun kv hkv => ?_
  obtain ⟨s, hs, node, hnode, hv⟩ := hstored kv.1 kv.2 (mem_query.mp hkv).2
  exact ⟨single s node, hv ▸ hdecode s hs node hnode, rfl⟩

omit [DecidableEq η] in
theorem Populated.single_of_stored (h : Populated hash encode ss st) (others : Set Service) (k : Key)
    (v : ν × Option ℕ) (hget : st.etcd.get k = some v) :
    ∃ s ∈ {s | s ∈ ss} ∪ others, ∃ node ∈ s.nodes, v.1 = encode (single s node) := by
  obtain ⟨s, hs, node, hnode, -, hv⟩ := h.stored k v hget
  exact ⟨s, .inl hs, node, hnode, hv⟩

theorem apart_of_isolated (h : Populated hash encode ss st)
    (hhash : Set.InjOn hash ({s | s ∈ ss} ∪ others)) (hdecode : Decodes encode decode ({s | s ∈ ss} ∪ others))
    (hiso : Isolated hash encode decode ss others name st) (t : Service) (ht : t ∈ ss ∨ t ∈ others)
    (hname : t.name ≠ name) (node : Node) (hnode : node ∈ t.nodes) : ¬ below name <+: key t node := by
  intro hk
  have hlen := length_servicesOf st.etcd name hdecode (h.single_of_stored others)
  by_cases hget : st.etcd.get (key t node) = none
  · -- registering the service adds an entry
    have hst' : Completes hash encode st (.register t 0) (registerResult hash encode st t 0) :=
      completes_register h.pc (h.leases t.name) 0
    have hsame := hiso.register t ht hname 0 _ hst'
    have hlen' := length_servicesOf (registerResult hash encode st t 0).etcd name hdecode fun k v hget => by
        obtain ⟨s, hs, c, hc, -, hv⟩ := h.stored_registerResult t 0 k v hget
        rcases List.mem_append.mp hs with hs | hs
        · exact ⟨s, .inl hs, c, hc, hv⟩
        · exact ⟨s, List.mem_singleton.mp hs ▸ ht, c, hc, hv⟩
    rw [hsame, hlen] at hlen'
    refine absurd hlen' (length_query_lt (fun k _ hk => ?_) hk hget ?_).ne
    · rcases get_registerResult hash encode st t 0 k with ⟨_, _, _, _, hget'⟩ | ⟨-, hget'⟩
      · exact hget' ▸ Option.some_ne_none _
      · exact hget' ▸ hk
    · exact h.present_registerResult (fun s' hs' heq => hhash (.inl hs') ht heq) 0 node hnode
  · -- deregistering the service takes one away
    have hsame := hiso.deregister t ht hname _ (completes_deregister h.pc t)
    have hlen' := length_servicesOf (deregisterResult st t).etcd name hdecode fun k v hget => by
        rcases get_deregisterResult st t k with ⟨-, hnone⟩ | ⟨-, hkeep⟩
        · cases hnone.symm.trans hget
        · exact h.single_of_stored others k v (hkeep.symm.trans hget)
    rw [hsame, hlen] at hlen'
    refine absurd hlen' (length_query_lt (fun k _ hk => ?_) hk ?_ hget).ne'
    · rcases get_deregisterResult st t k with ⟨-, hnone⟩ | ⟨-, hkeep⟩
      · exact absurd hnone hk
      · exact hkeep ▸ hk
    · rcases get_deregisterResult st t (key t node) with ⟨-, hnone⟩ | ⟨hnot, -⟩
      · exact hnone
      · exact absurd (List.mem_map_of_mem hnode) hnot

omit [DecidableEq η] in
theorem length_placed (ss : List Service) (name : String) :
    (placed ss name).length = ((ss.filter fun s => s.name = name).flatMap versioned).length := by
  unfold placed versioned
  simp only [List.length_flatMap, List.length_map]

theorem separate_of_isolated (h : Populated hash encode ss st)
    (hhash : Set.InjOn hash ({s | s ∈ ss} ∪ others)) (hdecode : Decodes encode decode ({s | s ∈ ss} ∪ others))
    (hiso : Isolated hash encode decode ss others name st) : Separate ss others name := by
  have hapart := apart_of_isolated h hhash hdecode hiso
  have hlen : (query st.etcd (below name)).length = (placed ss name).length := by
    have hcard := congrArg Multiset.card hiso.exact.nodes
    rw [Multiset.coe_card, ← length_placed] at hcard
    exact (length_servicesOf st.etcd name hdecode (h.single_of_stored others)).symm.trans hcard
  have hsubset : (query st.etcd (below name)).keys ⊆ (placed ss name).map Prod.fst := by
    intro k hk
    obtain ⟨hk, hget⟩ := mem_keys_query.mp hk
    obtain ⟨v, hv⟩ := Option.ne_none_iff_exists'.mp hget
    obtain ⟨s, hs, node, hnode, rfl, -⟩ := h.stored k v hv
    have hname : s.name = name := by
      by_contra hname
      exact hapart s (.inl hs) hname node hnode hk
    exact List.mem_map_of_mem (mem_placed.mpr ⟨s, hs, hname, node, hnode, rfl⟩)
  -- as many keys are below the path as have been put for the name
  have hperm : (query st.etcd (below name)).keys.Perm ((placed ss name).map Prod.fst) := by
    refine (List.subperm_of_subset (nodupKeys_query _ _) hsubset).perm_of_length_le ?_
    rw [List.length_map, ← hlen, List.keys, List.length_map]
  refine ⟨fun s hs hname node hnode => ?_, ?_, hapart⟩
  · have hmem : key s node ∈ (placed ss name).map Prod.fst :=
      List.mem_map_of_mem (mem_placed.mpr ⟨s, hs, hname, node, hnode, rfl⟩)
    exact (mem_keys_query.mp (hperm.mem_iff.mpr hmem)).1
  · rw [← map_fst_placed]
    exact hperm.nodup_iff.mp (nodupKeys_query _ _)

omit [DecidableEq η] in
/-- Plain names and ids are separate. -/
theorem separate_of_plain (hname : Plain name)
    (hplain : ∀ t, t ∈ ss ∨ t ∈ others → Plain t.name ∧ ∀ node ∈ t.nodes, Plain node.id)
    (hpairs : (ss.flatMap fun s => s.nodes.map fun node => (s.name, node.id)).Nodup) :
    Separate ss others name := by
  refine ⟨fun s hs hs' node hnode => ?_, ?_, fun t ht hne node hnode hbelow => ?_⟩
  · unfold below key
    rw [hs', nodePath_of_plain hname ((hplain s (.inl hs)).2 node hnode)]
    exact ⟨node.id.toList, by simp⟩
  · let pairs := (ss.filter fun s => s.name = name).flatMap fun s => s.nodes.map fun node => (s.name, node.id)
    have hkeys : ((ss.filter fun s => s.name = name).flatMap fun s => s.nodes.map (key s))
        = pairs.map fun p => nodePath p.1 p.2 := by
      unfold pairs
      simp only [List.map_flatMap, List.map_map, Function.comp_def]
      rfl
    have hpairs' : ∀ p ∈ pairs, Plain p.1 ∧ Plain p.2 := by
      intro p hp
      obtain ⟨s, hs, hp⟩ := List.mem_flatMap.mp hp
      obtain ⟨node, hnode, rfl⟩ := List.mem_map.mp hp
      have hs := hplain s (.inl (List.mem_filter.mp hs).1)
      exact ⟨hs.1, hs.2 node hnode⟩
    rw [hkeys]
    refine List.Nodup.map_on (fun p hp q hq heq => ?_) (hpairs.sublist (List.filter_sublist.flatMap _))
    obtain ⟨hfst, hsnd⟩ :=
      nodePath_inj (hpairs' p hp).1 (hpairs' p hp).2 (hpairs' q hq).1 (hpairs' q hq).2 heq
    exact Prod.ext hfst hsnd
  · obtain ⟨ht, hids⟩ := hplain t ht
    obtain ⟨rest, hrest⟩ := hbelow
    unfold below key at hrest
    rw [nodePath_of_plain ht (hids node hnode), servicePath_of_plain ht, servicePath_of_plain hname,
      List.append_assoc, List.append_assoc, List.append_assoc, List.append_cancel_left_eq] at hrest
    have htail : t.name.toList ++ '/' :: node.id.toList = name.toList ++ '/' :: rest :=
      (List.cons_inj_right _).mp hrest.symm
    have heq := ((List.append_cons_inj_of_notMem ht.no_slash (hids node hnode).no_slash).mp htail).1
    exact hne (String.toList_inj.mp heq)

end Calls

/-! ## Samples -/

/-- The inverse of `sampleJson` on some services. -/
def sampleDecode (table : List Service) (text : List Char) : Option Service :=
  table.find? fun s => sampleJson s = text

theorem sampleDecode_of_mem {table : List Service} (hnodup : (table.map sampleJson).Nodup) {s : Service}
    (hs : s ∈ table) : sampleDecode table (sampleJson s) = some s := by
  induction table with
  | nil => cases hs
  | cons t table ih =>
    obtain ⟨hnot, hnodup⟩ := List.nodup_cons.mp hnodup
    rcases List.mem_cons.mp hs with rfl | hs
    · exact List.find?_cons_of_pos (decide_eq_true rfl)
    · have hne : sampleJson t ≠ sampleJson s := fun heq => hnot (heq ▸ List.mem_map_of_mem hs)
      exact (List.find?_cons_of_neg (by simpa using hne)).trans (ih hnodup hs)

/-- What is put for the services. -/
def singles (ss : List Service) : List Service := ss.flatMap fun s => s.nodes.map (single s)

theorem decodes_sampleDecode {ss : List Service} (hnodup : ((singles ss).map sampleJson).Nodup) :
    Decodes sampleJson (sampleDecode (singles ss)) ({s | s ∈ ss} ∪ ∅) := by
  rintro s (hs | hs) node hnode
  · exact sampleDecode_of_mem hnodup (List.mem_flatMap.mpr ⟨s, hs, List.mem_map_of_mem hnode⟩)
  · cases hs

theorem injOn_sampleJson {ss : List Service} (hnodup : (ss.map sampleJson).Nodup) :
    Set.InjOn sampleJson ({s | s ∈ ss} ∪ ∅) := by
  rw [Set.union_empty]
  exact fun s hs t ht heq => List.inj_on_of_nodup_map hnodup hs ht heq

def gateAndChat : List Service :=
  [{ name := "gate", version := "1", nodes := [firstNode, secondNode] },
    { name := "chat", version := "1", nodes := [firstNode] }]

/-- Two names with one path. -/
def slashAndDash : List Service :=
  [{ name := "a/b", version := "1", nodes := [firstNode] },
    { name := "a-b", version := "1", nodes := [secondNode] }]

end Vmqant.Registry.Etcdv3
