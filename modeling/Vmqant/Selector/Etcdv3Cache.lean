import Vmqant.Common.Replica
import Vmqant.Registry.Etcdv3Watcher
import Vmqant.Registry.Isolation
import Vmqant.Selector.ConsulTracking
import Vmqant.Selector.Get

/-!
# The etcd watcher and the cache as one system

Reference: `registry/etcdv3/watcher.go`, `registry/etcdv3/etcdv3.go`, lines 208-250, and
`selector/cache/cache.go`, lines 83-257.

The keys below the path of a service change, each change goes to the watcher of the service as an event, and
the cache takes the results up one by one, later. In between a look-up can load the cache from etcd, which has
seen changes that the watcher has not. Both sides are maps from versions and ids to nodes: `content` is what
is in etcd, `byId` what is in an entry, and a put, a key that goes and a result that is taken up write them.
-/

namespace Vmqant.Selector.Etcdv3Cache

open Registry Registry.Etcdv3 Keyed

/-! ## The system -/

/-- etcd, the channel of the watcher of one service, and the selector. -/
structure State where
  etcd : LeaseStore Key KeyValue
  /-- The responses that `Next` has not received. -/
  responses : List WatchResponse
  selector : WatchingSelector

inductive Act where
  | put (k : Key) (kv : KeyValue) (lease : Option ℕ)
  | delete (k : Key) (revision : ℤ)
  | grant
  | expire (leaseID : ℕ) (revision : ℤ)
  /-- The watcher goroutine: `Next` and `update`. -/
  | next (now : ℤ)
  /-- A look-up, with the answer of the registry if it is asked. -/
  | get (now answered : ℤ) (registry : Except RegistryError (List Service))

/-- The events of one revision are one response. -/
def notify (responses : List WatchResponse) : List Event → List WatchResponse
  | [] => responses
  | events => responses ++ [⟨none, events⟩]

variable (client : Client) (name : String)

/-- The event of a put, for the watcher of the service. -/
def putEvents (etcd : LeaseStore Key KeyValue) (k : Key) (kv : KeyValue) : List Event :=
  if (below name).isPrefixOf k then [⟨.put, kv, (etcd.get k).map Prod.fst⟩] else []

/-- The events of the keys that go, for the watcher of the service. -/
def deleteEvents (etcd : LeaseStore Key KeyValue) (gone : (_ : Key) × KeyValue × Option ℕ → Bool)
    (revision : ℤ) : List Event :=
  ((query etcd (below name)).filter gone).map fun kv => ⟨.delete, ⟨0, revision, []⟩, some kv.2.1⟩

def step (st : State) : Act → Option State
  | .put k kv lease =>
    (st.etcd.put? k kv lease).map fun etcd =>
      { st with etcd, responses := notify st.responses (putEvents name st.etcd k kv) }
  | .delete k revision =>
    some { st with
      etcd := st.etcd.delete k
      responses := notify st.responses (deleteEvents name st.etcd (fun kv => kv.1 = k) revision) }
  | .grant => some { st with etcd := st.etcd.grant }
  | .expire leaseID revision =>
    some { st with
      etcd := st.etcd.expire leaseID
      responses :=
        notify st.responses (deleteEvents name st.etcd (fun kv => kv.2.2 = some leaseID) revision) }
  | .next now =>
    match next client st.responses with
    | (.result r, responses) =>
      some { st with
        responses
        selector := { st.selector with
          toCacheSelector := (update st.selector.toCacheSelector now (some r)).1 } }
    | _ => none
  | .get now answered registry =>
    some { st with selector := (st.selector.get now answered name registry).selector }

/-! ## What is asked of etcd and of those who write to it -/

/-- What `GetService` decodes. -/
def decodePair (kv : KeyValue) : Option Service := client.decode kv.value

/-- The services that `GetService` finds. -/
def published (etcd : LeaseStore Key KeyValue) : Except String (Multiset Service) :=
  servicesOf (decodePair client) etcd name

/-- The registry finds what is in etcd, or fails. -/
def Answers (etcd : LeaseStore Key KeyValue) : Except RegistryError (List Service) → Prop
  | .ok services => published client name etcd = .ok services
  | .error .notFound => published client name etcd = .error "not found"
  | .error (.other _) => True

/-- What `Register` puts for a node of the service. -/
def Registered (k : Key) (sn : Service) : Prop :=
  sn.name = name ∧ ∃ node, sn.nodes = [node] ∧ key sn node = k

/-- The key is there, and `sn` is what it holds. -/
def Holds (etcd : LeaseStore Key KeyValue) (k : Key) (sn : Service) : Prop :=
  ∃ v, etcd.get k = some v ∧ client.decode v.1.value = some sn

/-- Below the path is only what `Register` puts. -/
def Stored (etcd : LeaseStore Key KeyValue) : Prop :=
  ∀ k v, below name <+: k → etcd.get k = some v → ∃ sn, client.decode v.1.value = some sn ∧ Registered name k sn

/-- A put below the path comes from a `Register`, and a key that is there keeps its version and its id; a lease
holds at most one key below the path. -/
def Stable (st : State) : Act → Prop
  | .put k kv _ => below name <+: k → ∃ sn, client.decode kv.value = some sn ∧ Registered name k sn ∧
      ∀ old, Holds client st.etcd k old →
        old.version = sn.version ∧ old.nodes.map Node.id = sn.nodes.map Node.id
  | .expire leaseID _ => ∀ k k' kv kv', below name <+: k → below name <+: k' →
      st.etcd.get k = some (kv, some leaseID) → st.etcd.get k' = some (kv', some leaseID) → k = k'
  | .get _ _ registry => Answers client name st.etcd registry
  | _ => True

/-- The watch has been set up: nothing is on its way, what is below the path comes from `Register`, and there is
no entry for the service yet, or a current one. -/
structure Begun (st : State) : Prop where
  responses : st.responses = []
  stored : Stored client name st.etcd
  cached : Agrees st.selector.toCacheSelector name { p | p ∈ nodesOf (published client name st.etcd) }

/-! ## The nodes by version and id -/

/-- The node of a version with an id that is in etcd. -/
def content (etcd : LeaseStore Key KeyValue) (p : String × String) : Option Node :=
  let k := nodePath name p.2
  if (below name).isPrefixOf k then
    (etcd.get k).bind fun v => (client.decode v.1.value).bind fun sn =>
      if sn.version = p.1 then lookup Node.id sn.nodes p.2 else none
  else none

/-- The node of a version with an id that is in an entry. -/
def byId (services : List Service) (p : String × String) : Option Node :=
  lookup Node.id (nodesAt services p.1) p.2

section Content

variable {client} {name} {etcd etcd' : LeaseStore Key KeyValue} {k : Key} {sn : Service} {node : Node}
  {version id : String}

theorem Registered.exists_node (h : Registered name k sn) :
    ∃ node, sn.nodes = [node] ∧ nodePath name node.id = k := by
  obtain ⟨hname, node, hnodes, hkey⟩ := h
  unfold key at hkey
  rw [hname] at hkey
  exact ⟨node, hnodes, hkey⟩

theorem Registered.key_eq (h : Registered name k sn) (hnodes : sn.nodes = [node]) :
    nodePath name node.id = k := by
  obtain ⟨node', hnodes', hkey⟩ := h.exists_node
  obtain rfl : node = node' := List.singleton_inj.mp (hnodes.symm.trans hnodes')
  exact hkey

/-- What a key holds is the node of one version and id. -/
theorem content_of_holds (hpath : below name <+: k) (hholds : Holds client etcd k sn)
    (hnodes : sn.nodes = [node]) (hid : nodePath name id = k) :
    content client name etcd (version, id)
      = if (version, id) = (sn.version, node.id) then some node else none := by
  obtain ⟨v, hget, hdecode⟩ := hholds
  unfold content
  dsimp only
  rw [hid, if_pos (List.isPrefixOf_iff_prefix.mpr hpath), hget, Option.bind_some, hdecode, Option.bind_some,
    hnodes, lookup_cons, lookup_nil]
  by_cases hversion : sn.version = version
  · by_cases hid : node.id = id
    · rw [if_pos hversion, if_pos hid, if_pos (by rw [hversion, hid])]
    · rw [if_pos hversion, if_neg hid, if_neg fun h => hid (Prod.mk.inj h).2.symm]
  · rw [if_neg hversion, if_neg fun h => hversion (Prod.mk.inj h).1.symm]

theorem content_of_absent (hget : etcd.get k = none) (hid : nodePath name id = k) :
    content client name etcd (version, id) = none := by
  unfold content
  dsimp only
  rw [hid, hget]
  exact ite_self _

theorem content_of_not_below (hid : ¬ below name <+: nodePath name id) :
    content client name etcd (version, id) = none := by
  unfold content
  exact if_neg fun h => hid (List.isPrefixOf_iff_prefix.mp h)

theorem content_congr (h : below name <+: nodePath name id →
      etcd'.get (nodePath name id) = etcd.get (nodePath name id)) :
    content client name etcd' (version, id) = content client name etcd (version, id) := by
  by_cases hid : below name <+: nodePath name id
  · unfold content
    dsimp only
    rw [h hid]
  · rw [content_of_not_below hid, content_of_not_below hid]

/-- A key that is put anew, or goes, is a write of the nodes by version and id. -/
theorem content_update (version id : String)
    (hoff : ∀ k', k' ≠ k → below name <+: k' → etcd'.get k' = etcd.get k')
    (hself : ∀ version' id', (version', id') ≠ (version, id) → nodePath name id' = k →
      content client name etcd' (version', id') = content client name etcd (version', id')) :
    content client name etcd'
      = Function.update (content client name etcd) (version, id)
          (content client name etcd' (version, id)) := by
  funext ⟨version', id'⟩
  by_cases hne : (version', id') = (version, id)
  · rw [hne, Function.update_self]
  · rw [Function.update_of_ne hne]
    by_cases hid : nodePath name id' = k
    · exact hself version' id' hne hid
    · exact content_congr fun hpath => hoff _ hid hpath

/-- A put is a write, if the key keeps its version and id. -/
theorem content_put (hpath : below name <+: k) (hreg : Registered name k sn) {kv : KeyValue}
    {lease : Option ℕ} (hdecode : client.decode kv.value = some sn) (hnodes : sn.nodes = [node])
    (hstored : Stored client name etcd)
    (hkeeps : ∀ old, Holds client etcd k old →
      old.version = sn.version ∧ old.nodes.map Node.id = sn.nodes.map Node.id) :
    content client name (etcd.put k kv lease)
      = Function.update (content client name etcd) (sn.version, node.id) (some node) := by
  have hholds : Holds client (etcd.put k kv lease) k sn :=
    ⟨_, LeaseStore.get_put_self etcd k kv lease, hdecode⟩
  have hself : content client name (etcd.put k kv lease) (sn.version, node.id) = some node := by
    rw [content_of_holds hpath hholds hnodes (hreg.key_eq hnodes), if_pos rfl]
  refine (content_update sn.version node.id (fun k' hk' _ => LeaseStore.get_put_of_ne hk')
    fun version id hne hid => ?_).trans (by rw [hself])
  rw [content_of_holds hpath hholds hnodes hid, if_neg hne]
  cases hget : etcd.get k with
  | none => exact (content_of_absent hget hid).symm
  | some v =>
    -- the old node has the same version and id
    obtain ⟨old, hold, holdReg⟩ := hstored k v hpath hget
    obtain ⟨oldNode, holdNodes, -⟩ := holdReg.exists_node
    obtain ⟨hversion, hids⟩ := hkeeps old ⟨v, hget, hold⟩
    have hoid : oldNode.id = node.id := by simpa [holdNodes, hnodes] using hids
    rw [content_of_holds hpath ⟨v, hget, hold⟩ holdNodes hid, hversion, hoid, if_neg hne]

/-- A key that goes is a write. -/
theorem content_gone (hpath : below name <+: k) (hreg : Registered name k sn) (hholds : Holds client etcd k sn)
    (hnodes : sn.nodes = [node]) (hgone : etcd'.get k = none)
    (hoff : ∀ k', k' ≠ k → below name <+: k' → etcd'.get k' = etcd.get k') :
    content client name etcd'
      = Function.update (content client name etcd) (sn.version, node.id) none := by
  refine (content_update sn.version node.id hoff fun version id hne hid => ?_).trans
    (by rw [content_of_absent hgone (hreg.key_eq hnodes)])
  rw [content_of_absent hgone hid, content_of_holds hpath hholds hnodes hid, if_neg hne]

theorem mem_nodesOf_published :
    (version, node) ∈ nodesOf (published client name etcd)
      ↔ ∃ k sn, below name <+: k ∧ Holds client etcd k sn ∧ sn.version = version ∧ node ∈ sn.nodes := by
  have hnodes : nodesOf (published client name etcd)
      = (decoded (decodePair client) (query etcd (below name))).flatMap versioned := nodesOf_getService _ _
  rw [hnodes, Multiset.mem_coe, List.mem_flatMap]
  unfold decoded versioned
  simp only [List.mem_filterMap, List.mem_map, mem_query]
  constructor
  · rintro ⟨sn, ⟨v, ⟨kv, ⟨hpath, hget⟩, rfl⟩, hdecode⟩, n, hn, heq⟩
    obtain ⟨rfl, rfl⟩ := Prod.mk.inj heq
    exact ⟨kv.1, sn, hpath, ⟨kv.2, hget, hdecode⟩, rfl, hn⟩
  · rintro ⟨k, sn, hpath, ⟨v, hget, hdecode⟩, rfl, hn⟩
    exact ⟨sn, ⟨v.1, ⟨⟨k, v⟩, ⟨hpath, hget⟩, rfl⟩, hdecode⟩, node, hn, rfl⟩

/-- The nodes that `GetService` finds. -/
theorem mem_published (hstored : Stored client name etcd) :
    (version, node) ∈ nodesOf (published client name etcd)
      ↔ content client name etcd (version, node.id) = some node := by
  rw [mem_nodesOf_published]
  constructor
  · rintro ⟨k, sn, hpath, hholds, rfl, hnode⟩
    obtain ⟨v, hget, hdecode⟩ := hholds
    obtain ⟨sn', hdecode', hreg⟩ := hstored k v hpath hget
    obtain rfl : sn = sn' := Option.some.inj (hdecode.symm.trans hdecode')
    obtain ⟨node', hnodes, hkey⟩ := hreg.exists_node
    obtain rfl : node = node' := by simpa [hnodes] using hnode
    rw [content_of_holds hpath ⟨v, hget, hdecode⟩ hnodes hkey, if_pos rfl]
  · intro h
    by_cases hpath : below name <+: nodePath name node.id
    · cases hget : etcd.get (nodePath name node.id) with
      | none =>
        rw [content_of_absent hget rfl] at h
        cases h
      | some v =>
        obtain ⟨sn, hdecode, hreg⟩ := hstored _ v hpath hget
        obtain ⟨node', hnodes, -⟩ := hreg.exists_node
        rw [content_of_holds hpath ⟨v, hget, hdecode⟩ hnodes rfl] at h
        split at h
        · next heq =>
          obtain rfl := Option.some.inj h
          exact ⟨_, sn, hpath, ⟨v, hget, hdecode⟩, (Prod.mk.inj heq).1.symm, by simp [hnodes]⟩
        · cases h
    · rw [content_of_not_below hpath] at h
      cases h

end Content

/-! ## Entries of the cache -/

/-- No id has two nodes in a version. -/
def Consistent (services : List Service) : Prop :=
  ∀ version, ∀ node ∈ nodesAt services version, byId services (version, node.id) = some node

/-- A result about one node of the service. -/
structure Single (r : Result) (node : Node) : Prop where
  named : r.service.name = name
  nodes : r.service.nodes = [node]
  action : ∀ text, r.action ≠ .other text

/-- What the result writes. -/
def resultWrite (r : Result) (node : Node) : (String × String) × Option Node :=
  ((r.service.version, node.id), if r.action = .delete then none else some node)

section Entries

variable {client} {name} {services services' : List Service} {r : Result} {node : Node} {version id : String}

theorem byId_of_nodesAt (h : ∀ version, nodesAt services' version = nodesAt services version) :
    byId services' = byId services := by
  funext p
  unfold byId
  rw [h]

/-- On the nodes of the version of the result, by id. -/
theorem lookup_resultNodes (h : Single name r node) (old : List Node) (id : String) :
    lookup Node.id (resultNodes r old) id
      = if id = node.id then (resultWrite r node).2 else lookup Node.id old id := by
  have hlookup : lookup Node.id r.service.nodes id = if id = node.id then some node else none := by
    rw [h.nodes, lookup_cons, lookup_nil]
    exact if_congr eq_comm rfl rfl
  have hne : r.service.nodes ≠ [] := by
    rw [h.nodes]
    exact List.cons_ne_nil _ _
  have hput : lookup Node.id (if r.service.nodes = [] then old else appendOld r.service.nodes old) id
      = if id = node.id then some node else lookup Node.id old id := by
    rw [if_neg hne, lookup_appendOld, hlookup]
    split <;> rfl
  unfold resultNodes resultWrite
  cases haction : r.action with
  | create => exact hput
  | update => exact hput
  | delete =>
    dsimp only
    rw [lookup_filter_seen, hlookup]
    split <;> rfl
  | other text => exact absurd haction (h.action text)

theorem mem_appendOld {nodes old : List Node} {cur : Node} (h : cur ∈ appendOld nodes old) :
    cur ∈ nodes ∨ cur ∈ old ∧ seen nodes cur = false := by
  unfold appendOld at h
  induction old generalizing nodes with
  | nil => exact .inl h
  | cons first old ih =>
    rw [List.foldl_cons] at h
    by_cases hseen : seen nodes first = true
    · rw [if_pos hseen] at h
      exact (ih h).imp_right fun ⟨hcur, hnot⟩ => ⟨List.mem_cons_of_mem _ hcur, hnot⟩
    · rw [if_neg hseen] at h
      rcases ih h with hcur | ⟨hcur, hnot⟩
      · rcases List.mem_append.mp hcur with hcur | hcur
        · exact .inl hcur
        · obtain rfl := List.mem_singleton.mp hcur
          exact .inr ⟨List.mem_cons_self, Bool.eq_false_iff.mpr hseen⟩
      · refine .inr ⟨List.mem_cons_of_mem _ hcur, ?_⟩
        unfold seen at hnot
        rw [List.any_append, Bool.or_eq_false_iff] at hnot
        exact hnot.1

/-- What a result leaves is its node, or a node with another id. -/
theorem mem_resultNodes (h : Single name r node) {old : List Node} {cur : Node}
    (hcur : cur ∈ resultNodes r old) :
    r.action ≠ .delete ∧ cur = node ∨ cur ∈ old ∧ cur.id ≠ node.id := by
  have hseen : seen r.service.nodes cur = false → cur.id ≠ node.id := by
    intro hnot heq
    rw [h.nodes, ← Bool.not_eq_true] at hnot
    exact hnot (by simp [seen, heq])
  have hput : cur ∈ (if r.service.nodes = [] then old else appendOld r.service.nodes old) →
      cur = node ∨ cur ∈ old ∧ cur.id ≠ node.id := by
    intro hmem
    rw [if_neg (by simp [h.nodes])] at hmem
    rcases mem_appendOld hmem with hmem | ⟨hmem, hnot⟩
    · exact .inl (List.mem_singleton.mp (h.nodes ▸ hmem))
    · exact .inr ⟨hmem, hseen hnot⟩
  unfold resultNodes at hcur
  cases haction : r.action with
  | create =>
    rw [haction] at hcur
    exact (hput hcur).imp_left fun heq => ⟨by simp, heq⟩
  | update =>
    rw [haction] at hcur
    exact (hput hcur).imp_left fun heq => ⟨by simp, heq⟩
  | delete =>
    rw [haction] at hcur
    obtain ⟨hmem, hnot⟩ := List.mem_filter.mp hcur
    exact .inr ⟨hmem, hseen (by simpa using hnot)⟩
  | other text => exact absurd haction (h.action text)

theorem consistent_resultNodes (h : Single name r node) {old : List Node}
    (hold : ∀ cur ∈ old, lookup Node.id old cur.id = some cur) :
    ∀ cur ∈ resultNodes r old, lookup Node.id (resultNodes r old) cur.id = some cur := by
  intro cur hcur
  rw [lookup_resultNodes h]
  rcases mem_resultNodes h hcur with ⟨haction, rfl⟩ | ⟨hmem, hid⟩
  · rw [if_pos rfl, resultWrite, if_neg haction]
  · rw [if_neg hid, hold cur hmem]

/-- An entry that takes a result up has been written at one version and id. -/
theorem byId_update (h : Single name r node)
    (hnodes : ∀ version, nodesAt services' version
      = Function.update (nodesAt services) r.service.version
          (resultNodes r (nodesAt services r.service.version)) version) :
    byId services' = Replica.replay [resultWrite r node] (byId services) := by
  funext ⟨version, id⟩
  rw [Replica.replay_cons, Replica.replay_nil]
  unfold byId resultWrite
  dsimp only
  rw [hnodes, Function.update_apply, Function.update_apply]
  by_cases hversion : version = r.service.version
  · subst hversion
    rw [if_pos rfl, lookup_resultNodes h]
    by_cases hid : id = node.id
    · rw [if_pos hid, if_pos (by rw [hid])]
      rfl
    · rw [if_neg hid, if_neg fun heq => hid (Prod.mk.inj heq).2]
  · rw [if_neg hversion, if_neg fun heq => hversion (Prod.mk.inj heq).1]

theorem consistent_update (h : Single name r node) (hold : Consistent services)
    (hnodes : ∀ version, nodesAt services' version
      = Function.update (nodesAt services) r.service.version
          (resultNodes r (nodesAt services r.service.version)) version) : Consistent services' := by
  intro version cur hcur
  unfold byId
  rw [hnodes, Function.update_apply] at hcur ⊢
  split at hcur
  · next hversion =>
    rw [if_pos hversion]
    exact consistent_resultNodes h (hold r.service.version) cur hcur
  · next hversion =>
    rw [if_neg hversion]
    exact hold version cur hcur

/-- The nodes of a consistent entry are those found by version and id. -/
theorem Consistent.mem_tuples_iff (h : Consistent services) (hw : EntryWf name services) :
    (version, node) ∈ tuples services ↔ byId services (version, node.id) = some node := by
  rw [mem_tuples hw.versions]
  exact ⟨h version node, fun hlookup => (mem_of_lookup hlookup).1⟩

/-- Nodes that are given by a function of version and id are consistent, and found by it. -/
theorem consistent_of_mem {f : String × String → Option Node} (hid : ∀ p n, f p = some n → n.id = p.2)
    (h : ∀ version node, node ∈ nodesAt services version ↔ f (version, node.id) = some node) :
    Consistent services ∧ byId services = f := by
  have hbyId : byId services = f := by
    funext ⟨version, id⟩
    unfold byId
    cases hlookup : lookup Node.id (nodesAt services version) id with
    | some n =>
      obtain ⟨hmem, rfl⟩ := mem_of_lookup hlookup
      exact ((h version n).mp hmem).symm
    | none =>
      cases hf : f (version, id) with
      | none => rfl
      | some n =>
        obtain rfl : n.id = id := hid _ n hf
        exact absurd rfl (lookup_eq_none.mp hlookup n ((h version n).mpr hf))
  refine ⟨fun version node hnode => ?_, hbyId⟩
  rw [hbyId]
  exact (h version node).mp hnode

/-- The entry of a cache, if there is one, is well-formed and consistent. -/
def Filed (name : String) (c : CacheSelector) : Prop :=
  ∀ services, c.cache name = some services → EntryWf name services ∧ Consistent services

/-- A result is written into the entry, or the entry goes. -/
theorem Filed.update {c : CacheSelector} (hc : Filed name c) (h : Single name r node) (now : ℤ) :
    Filed name (update c now (some r)).1 ∧ ∃ keep : Bool,
      ((update c now (some r)).1.cache name).map byId
        = if keep then ((c.cache name).map byId).map (Replica.replay [resultWrite r node]) else none := by
  cases hs : c.cache name with
  | none =>
    rw [update_absent c now (h.named.symm ▸ hs)]
    refine ⟨hc, true, ?_⟩
    rw [hs]
    rfl
  | some services =>
    obtain ⟨hw, hconsistent⟩ := hc services hs
    have hhas : Has c r.service.name (nodesAt services) := by
      intro l hl
      rw [h.named] at hl ⊢
      obtain rfl := Option.some.inj (hs.symm.trans hl)
      exact ⟨hw, fun _ => rfl⟩
    have hupdate := hhas.update now
    rw [h.named] at hupdate
    cases hs' : (Selector.update c now (some r)).1.cache name with
    | none =>
      refine ⟨fun l hl => ?_, false, rfl⟩
      cases hs'.symm.trans hl
    | some services' =>
      obtain ⟨hw', hnodes⟩ := hupdate services' hs'
      refine ⟨fun l hl => ?_, true, ?_⟩
      · obtain rfl := Option.some.inj (hs'.symm.trans hl)
        exact ⟨hw', consistent_update h hconsistent hnodes⟩
      · rw [Option.map_some, Option.map_some, Option.map_some, byId_update h hnodes]
        rfl

end Entries

end Vmqant.Selector.Etcdv3Cache
