import Vmqant.Common.LeaseStore
import Vmqant.Common.Path
import Vmqant.Registry.Service

/-!
# The etcd registry

Reference: `registry/etcdv3/etcdv3.go`, lines 99-262.

A call of `Register` or `Deregister` is a sequence of requests, each of which is a step: the client gets an
answer, or an error, after which it does not know whether the request was served. Leases expire between the
requests. The registry keeps the hash and the lease of the service that it registered last under each name.
-/

namespace Vmqant.Registry.Etcdv3

open Path (Text)

abbrev Key := Text

def registryPrefix : Key := "/mqant-registry".toList

/-- `strings.Replace(s, "/", "-", -1)`. -/
def dashed (s : String) : Text := s.toList.map fun c => if c = '/' then '-' else c

def nodePath (s id : String) : Key := Path.join [registryPrefix, dashed s, dashed id]

def servicePath (s : String) : Key := Path.join [registryPrefix, dashed s]

/-! ### Keys -/

theorem not_mem_dashed (s : String) : '/' ∉ dashed s := by
  intro h
  obtain ⟨c, -, hc⟩ := List.mem_map.mp h
  split at hc
  · exact absurd hc (by decide)
  · next hne => exact hne hc

theorem clean_registryPrefix (segments : List Text) :
    Path.clean ((registryPrefix.splitOn '/') ++ segments)
      = segments.foldl Path.push ["mqant-registry".toList] := by
  have hsplit : registryPrefix.splitOn '/' = [[], "mqant-registry".toList] := rfl
  rw [hsplit]
  rfl

theorem nodePath_eq (s id : String) :
    nodePath s id
      = Path.render (Path.push (Path.push ["mqant-registry".toList] (dashed s)) (dashed id)) := by
  unfold nodePath Path.join
  rw [List.flatMap_cons, clean_registryPrefix]
  simp [Path.splitOn_of_not_mem (not_mem_dashed _)]

theorem servicePath_eq (s : String) :
    servicePath s = Path.render (Path.push ["mqant-registry".toList] (dashed s)) := by
  unfold servicePath Path.join
  rw [List.flatMap_cons, clean_registryPrefix]
  simp [Path.splitOn_of_not_mem (not_mem_dashed _)]

/-- A name, or an id, that is a segment of a path as it is. -/
structure Plain (s : String) : Prop where
  no_slash : '/' ∉ s.toList
  ordinary : Path.Ordinary s.toList

instance : DecidablePred Plain := fun s =>
  decidable_of_iff ('/' ∉ s.toList ∧ Path.Ordinary s.toList)
    ⟨fun ⟨hslash, hordinary⟩ => ⟨hslash, hordinary⟩, fun h => ⟨h.no_slash, h.ordinary⟩⟩

theorem Plain.dashed {s : String} (h : Plain s) : dashed s = s.toList := by
  have hmap : s.toList.map (fun c => if c = '/' then '-' else c) = s.toList.map id :=
    List.map_congr_left fun c hc => if_neg (ne_of_mem_of_not_mem hc h.no_slash)
  exact hmap.trans (List.map_id _)

theorem servicePath_of_plain {s : String} (hs : Plain s) :
    servicePath s = registryPrefix ++ '/' :: s.toList := by
  rw [servicePath_eq, hs.dashed, Path.push_of_ordinary hs.ordinary, Path.render_append (by simp),
    Path.render_singleton]
  rfl

theorem nodePath_of_plain {s id : String} (hs : Plain s) (hid : Plain id) :
    nodePath s id = servicePath s ++ '/' :: id.toList := by
  rw [nodePath_eq, hid.dashed, Path.push_of_ordinary hid.ordinary, Path.render_append, servicePath_eq]
  rw [hs.dashed, Path.push_of_ordinary hs.ordinary]
  exact List.append_ne_nil_of_right_ne_nil _ (List.cons_ne_nil _ _)

/-- Plain names and ids have different keys. -/
theorem nodePath_inj {s id s' id' : String} (hs : Plain s) (hid : Plain id) (hs' : Plain s')
    (hid' : Plain id') (h : nodePath s id = nodePath s' id') : s = s' ∧ id = id' := by
  rw [nodePath_of_plain hs hid, nodePath_of_plain hs' hid', servicePath_of_plain hs,
    servicePath_of_plain hs', List.append_assoc, List.append_assoc, List.append_cancel_left_eq] at h
  have htail : s.toList ++ '/' :: id.toList = s'.toList ++ '/' :: id'.toList :=
    (List.cons_inj_right _).mp h
  obtain ⟨hname, -, heq⟩ := (List.append_cons_inj_of_notMem hs.no_slash hid.no_slash).mp htail
  exact ⟨String.toList_inj.mp hname, String.toList_inj.mp heq⟩

/-- The key of a node of the service. -/
def key (s : Service) (node : Node) : Key := nodePath s.name node.id

/-- What `Register` encodes for a node of the service. -/
def single (s : Service) (node : Node) : Service := { s with nodes := [node] }

/-! ## `Register` and `Deregister` -/

inductive Call where
  | register (s : Service) (ttl : ℤ)
  | deregister (s : Service)

/-- How a request ends for the client. -/
inductive Reply where
  | answer
  | failed (served : Bool)
deriving DecidableEq

def Reply.served : Reply → Bool
  | .answer => true
  | .failed served => served

/-- The request that is under way, with the local variables of the call. -/
inductive Pc where
  | idle
  | keepAlive (s : Service) (ttl : ℤ) (leaseID : ℕ)
  | grant (s : Service)
  /-- The loop of `Register`, with the nodes that have been put. -/
  | put (s : Service) (lease : Option ℕ) (done todo : List Node)
  | delete (s : Service) (todo : List Node)

inductive Act where
  | call (c : Call)
  | reply (r : Reply)
  | expire (leaseID : ℕ)

structure State (η ν : Type) where
  register : String → Option η
  leases : String → Option ℕ
  etcd : LeaseStore Key ν
  pc : Pc
  /-- The service whose `Register` has returned `nil` in the last step. -/
  returned : Option Service

variable {η ν : Type} [DecidableEq η] (hash : Service → η) (encode : Service → ν)

/-- `NewRegistry`. -/
def start (etcd : LeaseStore Key ν) : State η ν := ⟨fun _ => none, fun _ => none, etcd, .idle, none⟩

namespace State

omit [DecidableEq η] in
def goto (st : State η ν) (pc : Pc) : State η ν := { st with pc, returned := none }

omit [DecidableEq η] in
def ret (st : State η ν) (returned : Option Service) : State η ν := { st with pc := .idle, returned }

end State

/-- `Register` from the hash on. -/
def checkHash (st : State η ν) (s : Service) (ttl : ℤ) (leaseNotFound : Bool) : State η ν :=
  -- the service is unchanged, skip registering
  if st.register s.name = some (hash s) ∧ leaseNotFound = false then st.ret (some s)
  else if 0 < ttl then st.goto (.grant s)
  else st.goto (.put s none [] s.nodes)

def beginCall (st : State η ν) : Call → State η ν
  | .register s ttl =>
    if s.nodes = [] then st.ret none
    else match st.leases s.name with
      | some leaseID => st.goto (.keepAlive s ttl leaseID)
      | none => checkHash hash st s ttl false
  | .deregister s =>
    if s.nodes = [] then st.ret none
    else
      { st with
        register := Function.update st.register s.name none
        leases := Function.update st.leases s.name none }.goto (.delete s s.nodes)

omit [DecidableEq η] in
/-- The end of `Register`. -/
def save (st : State η ν) (s : Service) (lease : Option ℕ) : State η ν :=
  { st with
    register := Function.update st.register s.name (some (hash s))
    leases := lease.elim st.leases fun leaseID => Function.update st.leases s.name (some leaseID) }.ret
      (some s)

omit [DecidableEq η] in
/-- One round of the loop of `Register`. -/
def putReply (st : State η ν) (s : Service) (lease : Option ℕ) (done : List Node) (node : Node)
    (todo : List Node) (r : Reply) : State η ν :=
  let put := st.etcd.put? (key s node) (encode (single s node)) lease
  match r, put with
  | .answer, some etcd =>
    if todo = [] then save hash { st with etcd } s lease
    else { st with etcd }.goto (.put s lease (done ++ [node]) todo)
  | .failed true, some etcd => { st with etcd }.ret none
  | _, _ => st.ret none

omit [DecidableEq η] in
/-- One round of the loop of `Deregister`. -/
def deleteReply (st : State η ν) (s : Service) (node : Node) (todo : List Node) (r : Reply) : State η ν :=
  let etcd := if r.served then st.etcd.delete (key s node) else st.etcd
  if r = .answer ∧ todo ≠ [] then { st with etcd }.goto (.delete s todo) else { st with etcd }.ret none

def onReply (st : State η ν) (r : Reply) : Option (State η ν) :=
  match st.pc with
  | .idle => none
  | .keepAlive s ttl leaseID =>
    -- the lease is not found, or there is no answer
    if r = .answer then some (checkHash hash st s ttl !st.etcd.alive leaseID) else some (st.ret none)
  | .grant s =>
    let etcd := if r.served then st.etcd.grant else st.etcd
    if r = .answer then some ({ st with etcd }.goto (.put s (some st.etcd.next) [] s.nodes))
    else some ({ st with etcd }.ret none)
  | .put s lease done (node :: todo) => some (putReply hash encode st s lease done node todo r)
  | .delete s (node :: todo) => some (deleteReply st s node todo r)
  | .put _ _ _ [] | .delete _ [] => none

def step (st : State η ν) : Act → Option (State η ν)
  | .call c =>
    match st.pc with
    | .idle => some (beginCall hash st c)
    | _ => none
  | .reply r => onReply hash encode st r
  | .expire leaseID => some { st with etcd := st.etcd.expire leaseID, returned := none }

/-! ## `GetService` -/

/-- What etcd answers to a query for the keys with the prefix `path`: the values, by descending key. -/
def query (etcd : LeaseStore Key ν) (path : Key) : List ((_ : Key) × ν × Option ℕ) :=
  (etcd.kvs.entries.filter fun kv => path.isPrefixOf kv.1).insertionSort fun a b => b.1 ≤ a.1

variable (decode : ν → Option Service)

/-- The nodes of `sn` are added to the service with its version. -/
def add (serviceMap : AList fun _ : String => Service) (sn : Service) : AList fun _ : String => Service :=
  let s := (serviceMap.lookup sn.version).getD { sn with nodes := [] }
  serviceMap.insert sn.version { s with nodes := s.nodes ++ sn.nodes }

/-- One round of the loop of `GetService`. -/
def merge (serviceMap : AList fun _ : String => Service) (value : ν) : AList fun _ : String => Service :=
  match decode value with
  | none => serviceMap
  | some sn => add serviceMap sn

/-- `GetService` with the response of the query: the services are in the order in which the map is ranged
over, so in none. -/
def getService : Except String (List ((_ : Key) × ν × Option ℕ)) → Except String (Multiset Service)
  | .error err => .error err
  | .ok kvs =>
    if kvs = [] then .error "not found"
    else
      let serviceMap := (kvs.map fun kv => kv.2.1).foldl (merge decode) ∅
      .ok (serviceMap.entries.map Sigma.snd : List Service)

/-- `GetService` when etcd answers. -/
def servicesOf (etcd : LeaseStore Key ν) (name : String) : Except String (Multiset Service) :=
  getService decode (.ok (query etcd (servicePath name ++ ['/'])))

/-! ## Sample data -/

/-- The JSON text of a service without metadata and endpoints. -/
def sampleJson (s : Service) : List Char :=
  let node := fun node : Node =>
    "\x7b\"id\":\"".toList ++ node.id.toList ++ "\",\"address\":\"".toList ++ node.address.toList
      ++ "\",\"port\":".toList ++ (toString node.port).toList ++ ",\"metadata\":null\x7d".toList
  "\x7b\"name\":\"".toList ++ s.name.toList ++ "\",\"version\":\"".toList ++ s.version.toList
    ++ "\",\"metadata\":null,\"endpoints\":null,\"nodes\":[".toList
    ++ [','].intercalate (s.nodes.map node) ++ "]\x7d".toList

def firstNode : Node := ⟨"a1", "10.0.0.1", 8080, ∅⟩

def secondNode : Node := ⟨"a2", "10.0.0.2", 8080, ∅⟩

end Vmqant.Registry.Etcdv3
