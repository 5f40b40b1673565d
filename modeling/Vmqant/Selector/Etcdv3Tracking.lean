import Vmqant.Selector.Etcdv3Cache

/-!
# The cache behind the etcd watcher

Seen from the nodes by version and id the cache is a replica of etcd: `advances_of_run` gives the run of
`Replica.step` for each run, so what is on its way always brings the cache up to date. For this a key has to
keep its version as long as it is there, since the cache files the nodes by version and does not hear of the
old one (`overwrite_agrees_iff`), and a lease has to hold one key, since `Next` drops the other events of a
response.
-/

namespace Vmqant.Selector.Etcdv3Cache

open Registry Registry.Etcdv3 Keyed

variable (client : Client) (name : String)

/-! ## The system is a replica -/

/-- The write that an event stands for. -/
def eventWrite (ev : Event) : Option ((String × String) × Option Node) :=
  (ev.result? client).bind fun r => r.service.nodes.head?.map (resultWrite r)

/-- The nodes by version and id: those in etcd, those on their way, and those of the entry. -/
def replicaOf (st : State) : Replica.State (String × String) (Option Node) where
  primary := content client name st.etcd
  log := (st.responses.flatMap (·.events)).filterMap (eventWrite client)
  replica := (st.selector.cache name).map byId

/-- A response of one event, which is about one node of the service. -/
def Reports (wresp : WatchResponse) : Prop :=
  wresp.err = none ∧ ∃ ev r node, wresp.events = [ev] ∧ ev.result? client = some r ∧ Single name r node

structure Sound (st : State) : Prop where
  stored : Stored client name st.etcd
  responses : ∀ wresp ∈ st.responses, Reports client name wresp
  cached : Filed name st.selector.toCacheSelector

/-- The replica makes some steps from the one state to the other. -/
def Follows (st st' : State) : Prop :=
  Lts.Reachable Replica.step (replicaOf client name st) (replicaOf client name st')

/-- The step keeps what is known of the state, and the replica follows it. -/
def Advances (st st' : State) : Prop := Sound client name st' ∧ Follows client name st st'

section Refinement

variable {client} {name} {st st' : State} {etcd : LeaseStore Key KeyValue} {services : List Service}

theorem follows_of_eq (h : replicaOf client name st' = replicaOf client name st) : Follows client name st st' :=
  ⟨[], congrArg some h.symm⟩

theorem follows_of_step {a : Replica.Act (String × String) (Option Node)}
    (h : Replica.step (replicaOf client name st) a = some (replicaOf client name st')) :
    Follows client name st st' :=
  ⟨[a], Lts.run_cons_eq_some.mpr ⟨_, h, rfl⟩⟩

/-- An entry with the nodes that `GetService` finds has them by version and id. -/
theorem entry_of_tuples (hstored : Stored client name etcd) (hw : EntryWf name services)
    (h : tuples services = { p | p ∈ nodesOf (published client name etcd) }) :
    Consistent services ∧ byId services = content client name etcd := by
  refine consistent_of_mem (fun p n hn => ?_) fun version node => ?_
  · -- the node is looked up by its id
    unfold content at hn
    dsimp only at hn
    split at hn
    · obtain ⟨v, -, hn⟩ := Option.bind_eq_some_iff.mp hn
      obtain ⟨sn, -, hn⟩ := Option.bind_eq_some_iff.mp hn
      split at hn
      · exact (mem_of_lookup hn).2
      · cases hn
    · cases hn
  · rw [← mem_tuples hw.versions, h, ← mem_published hstored]
    rfl

theorem tuples_of_answer (h : published client name etcd = .ok services) :
    tuples services = { p | p ∈ nodesOf (published client name etcd) } := by
  rw [h]
  unfold nodesOf versioned
  ext ⟨version, node⟩
  simp [tuples, and_comm]

/-- What `GetService` finds is loaded. -/
theorem answer_spec (hstored : Stored client name etcd) (h : published client name etcd = .ok services) :
    EntryWf name services ∧ Consistent services ∧ byId services = content client name etcd := by
  obtain ⟨-, hservices⟩ := getService_ok h
  have hperm := Multiset.coe_eq_coe.mp hservices
  have hnames : ∀ sn ∈ decoded (decodePair client) (query etcd (below name)), sn.name = name := by
    intro sn hsn
    obtain ⟨v, hv, hdecode⟩ := List.mem_filterMap.mp hsn
    obtain ⟨kv, hkv, rfl⟩ := List.mem_map.mp hv
    obtain ⟨hpath, hget⟩ := mem_query.mp hkv
    obtain ⟨sn', hdecode', hreg⟩ := hstored kv.1 kv.2 hpath hget
    obtain rfl := Option.some.inj (hdecode.symm.trans hdecode')
    exact hreg.1
  have hfold := foldl_add byVersion_empty (decoded (decodePair client) (query etcd (below name)))
  have hwf : EntryWf name services := by
    constructor
    · intro s hs
      obtain ⟨e, he, rfl⟩ := List.mem_map.mp (hperm.mem_iff.mp hs)
      exact name_foldl_add (m := ∅) (by simp) hnames e.1 e.2 (AList.mem_lookup_iff.mpr he)
    · exact Distinct.perm (nodup_versions hfold.1) hperm
  exact ⟨hwf, entry_of_tuples hstored hwf (tuples_of_answer h)⟩

theorem log_notify (responses : List WatchResponse) (events : List Event) :
    (notify responses events).flatMap (·.events) = responses.flatMap (·.events) ++ events := by
  cases events with
  | nil => exact (List.append_nil _).symm
  | cons ev events => simp [notify]

theorem Sound.notify (h : Sound client name st) {ev : Event} {r : Result} {node : Node}
    (hr : ev.result? client = some r) (hsingle : Single name r node) :
    ∀ wresp ∈ notify st.responses [ev], Reports client name wresp := by
  intro wresp hwresp
  rcases List.mem_append.mp hwresp with hwresp | hwresp
  · exact h.responses wresp hwresp
  · rw [List.mem_singleton.mp hwresp]
    exact ⟨rfl, ev, r, node, rfl, hr, hsingle⟩

theorem eventWrite_of_single {ev : Event} {r : Result} {node : Node} (hr : ev.result? client = some r)
    (h : Single name r node) : eventWrite client ev = some (resultWrite r node) := by
  unfold eventWrite
  rw [hr, Option.bind_some, h.nodes]
  rfl

/-- An event that is told of a write goes to the end of the log. -/
theorem follows_of_write {ev : Event} {r : Result} {node : Node} (hr : ev.result? client = some r)
    (h : Single name r node)
    (hcontent : content client name etcd
      = Function.update (content client name st.etcd) (r.service.version, node.id)
          (if r.action = .delete then none else some node)) :
    Follows client name st { st with etcd, responses := notify st.responses [ev] } := by
  refine follows_of_step (a := .write (resultWrite r node).1 (resultWrite r node).2) ?_
  unfold replicaOf
  dsimp only [Replica.step]
  rw [log_notify, List.filterMap_append, hcontent]
  have hlog : [ev].filterMap (eventWrite client) = [resultWrite r node] := by
    rw [List.filterMap_cons_some (eventWrite_of_single hr h)]
    rfl
  rw [hlog]
  rfl

/-- Nothing happens below the path. -/
theorem advances_of_agree (h : Sound client name st)
    (hget : ∀ k, below name <+: k → etcd.get k = st.etcd.get k) :
    Advances client name st { st with etcd } := by
  refine ⟨⟨fun k v hpath hv => ?_, h.responses, h.cached⟩, follows_of_eq ?_⟩
  · dsimp only at hv
    rw [hget k hpath] at hv
    exact h.stored k v hpath hv
  · have hcontent : content client name etcd = content client name st.etcd := by
      funext ⟨version, id⟩
      exact content_congr fun hpath => hget _ hpath
    unfold replicaOf
    dsimp only
    rw [hcontent]

theorem Stored.put (h : Stored client name etcd) {k : Key} {kv : KeyValue} {lease : Option ℕ} {sn : Service}
    (hdecode : client.decode kv.value = some sn) (hreg : Registered name k sn) :
    Stored client name (etcd.put k kv lease) := by
  intro k' v hpath hv
  by_cases hk : k' = k
  · subst hk
    rw [LeaseStore.get_put_self] at hv
    obtain rfl := Option.some.inj hv
    exact ⟨sn, hdecode, hreg⟩
  · exact h k' v hpath ((LeaseStore.get_put_of_ne hk).symm.trans hv)

/-- The event of a put below the path stands for a result about its node. -/
theorem putEvents_spec (etcd : LeaseStore Key KeyValue) {k : Key} {kv : KeyValue} {sn : Service} {node : Node}
    (hpath : below name <+: k) (hdecode : client.decode kv.value = some sn) (hreg : Registered name k sn)
    (hnodes : sn.nodes = [node]) :
    ∃ ev r, putEvents name etcd k kv = [ev] ∧ ev.result? client = some r ∧ Single name r node ∧
      r.action ≠ .delete ∧ r.service = sn := by
  obtain ⟨ev, hev, htype, hsubject⟩ : ∃ ev : Event, putEvents name etcd k kv = [ev] ∧
      ev.type = .put ∧ ev.subject = some kv :=
    ⟨_, if_pos (List.isPrefixOf_iff_prefix.mpr hpath), rfl, rfl⟩
  have hr : ev.result? client = some ⟨ev.action client, sn⟩ := by
    unfold Event.result?
    rw [hsubject, Option.bind_some, hdecode]
    rfl
  have haction : ev.action client = .create ∨ ev.action client = .update := by
    unfold Event.action
    rw [htype]
    exact (Bool.eq_false_or_eq_true (client.isCreate ev)).imp (fun hc => if_pos hc)
      fun hc => if_neg (Bool.eq_false_iff.mp hc)
  have hother : ∀ a : Action, a ≠ .create → a ≠ .update → ev.action client ≠ a := by
    rintro a hcreate hupdate rfl
    exact haction.elim hcreate hupdate
  exact ⟨ev, _, hev, hr, ⟨hreg.1, hnodes, fun text => hother _ (by simp) (by simp)⟩,
    hother _ (by simp) (by simp), rfl⟩

theorem advances_put (h : Sound client name st) {k : Key} {kv : KeyValue} {lease : Option ℕ}
    (hstable : Stable client name st (.put k kv lease)) :
    Advances client name st { st with
      etcd := st.etcd.put k kv lease
      responses := notify st.responses (putEvents name st.etcd k kv) } := by
  have hoff : ∀ k', k' ≠ k → (st.etcd.put k kv lease).get k' = st.etcd.get k' :=
    fun _ hk' => LeaseStore.get_put_of_ne hk'
  by_cases hpath : below name <+: k
  · obtain ⟨sn, hdecode, hreg, hkeeps⟩ := hstable hpath
    obtain ⟨node, hnodes, -⟩ := hreg.exists_node
    obtain ⟨ev, r, hev, hr, hsingle, hdelete, rfl⟩ := putEvents_spec st.etcd hpath hdecode hreg hnodes
    rw [hev]
    refine ⟨⟨fun k' v hpath' hv => ?_, h.notify hr hsingle, h.cached⟩, follows_of_write hr hsingle ?_⟩
    · exact h.stored.put hdecode hreg k' v hpath' hv
    · rw [content_put hpath hreg hdecode hnodes h.stored hkeeps, if_neg hdelete]
  · have hevents : putEvents name st.etcd k kv = [] :=
      if_neg fun hp => hpath (List.isPrefixOf_iff_prefix.mp hp)
    rw [hevents]
    exact advances_of_agree h fun k' hk' => hoff k' fun heq => hpath (heq ▸ hk')

theorem filter_eq_singleton {α : Type} {l : List α} {p : α → Bool} {a : α} (hl : l.Nodup) (ha : a ∈ l)
    (hp : p a = true) (hone : ∀ b ∈ l, p b → b = a) : l.filter p = [a] := by
  refine List.perm_singleton.mp ((List.perm_ext_iff_of_nodup (hl.filter p) (List.nodup_singleton a)).mpr ?_)
  intro b
  rw [List.mem_filter, List.mem_singleton]
  exact ⟨fun ⟨hb, hpb⟩ => hone b hb hpb, fun heq => heq ▸ ⟨ha, hp⟩⟩

/-- At most one of the keys below the path goes. -/
theorem advances_remove (h : Sound client name st) {gone : (_ : Key) × KeyValue × Option ℕ → Bool}
    (revision : ℤ) (hget : ∀ k, etcd.get k = (st.etcd.get k).filter fun v => !gone ⟨k, v⟩)
    (hone : ∀ a ∈ query st.etcd (below name), ∀ b ∈ query st.etcd (below name), gone a → gone b → a = b) :
    Advances client name st { st with
      etcd
      responses := notify st.responses (deleteEvents name st.etcd gone revision) } := by
  have hkept : ∀ k, (∀ v, st.etcd.get k = some v → ¬ gone ⟨k, v⟩) → etcd.get k = st.etcd.get k := by
    intro k hk
    rw [hget]
    cases hv : st.etcd.get k with
    | none => rfl
    | some v => exact Option.filter_eq_some_iff.mpr ⟨rfl, by simpa using hk v hv⟩
  by_cases hex : ∃ kv ∈ query st.etcd (below name), gone kv
  · obtain ⟨kv, hkv, hgone⟩ := hex
    obtain ⟨hpath, hkey⟩ := mem_query.mp hkv
    obtain ⟨sn, hdecode, hreg⟩ := h.stored kv.1 kv.2 hpath hkey
    obtain ⟨node, hnodes, -⟩ := hreg.exists_node
    have hfilter : (query st.etcd (below name)).filter gone = [kv] :=
      filter_eq_singleton (nodupKeys_query _ _).nodup hkv hgone fun b hb hb' => hone b hb kv hkv hb' hgone
    obtain ⟨ev, hev, htype, hsubject⟩ : ∃ ev : Event, deleteEvents name st.etcd gone revision = [ev] ∧
        ev.type = .delete ∧ ev.subject = some kv.2.1 := by
      unfold deleteEvents
      rw [hfilter]
      exact ⟨_, rfl, rfl, rfl⟩
    have hr : ev.result? client = some ⟨.delete, sn⟩ := by
      unfold Event.result? Event.action
      rw [hsubject, Option.bind_some, hdecode, htype]
      rfl
    have hsingle : Single name ⟨.delete, sn⟩ node := ⟨hreg.1, hnodes, by simp⟩
    have hnone : etcd.get kv.1 = none := by
      rw [hget, hkey, Option.filter_some, hgone]
      rfl
    have hoff : ∀ k, k ≠ kv.1 → below name <+: k → etcd.get k = st.etcd.get k := by
      refine fun k hk hpath' => hkept k fun v hv hgone' => hk ?_
      exact congrArg Sigma.fst (hone ⟨k, v⟩ (mem_query.mpr ⟨hpath', hv⟩) kv hkv hgone' hgone)
    rw [hev]
    refine ⟨⟨fun k v hpath' hv => ?_, h.notify hr hsingle, h.cached⟩, follows_of_write hr hsingle ?_⟩
    · dsimp only at hv
      rw [hget] at hv
      exact h.stored k v hpath' (Option.filter_eq_some_iff.mp hv).1
    · exact content_gone hpath hreg ⟨kv.2, hkey, hdecode⟩ hnodes hnone hoff
  · have hevents : deleteEvents name st.etcd gone revision = [] := by
      unfold deleteEvents
      rw [List.filter_eq_nil_iff.mpr fun kv hkv hgone => hex ⟨kv, hkv, hgone⟩]
      rfl
    rw [hevents]
    refine advances_of_agree h fun k hpath => hkept k fun v hv hgone => ?_
    exact hex ⟨⟨k, v⟩, mem_query.mpr ⟨hpath, hv⟩, hgone⟩

theorem next_of_event (hclient : client.Lawful) {ev : Event} {r : Result} (hr : ev.result? client = some r)
    {wresp : WatchResponse} (herr : wresp.err = none) (hevents : wresp.events = [ev])
    (rest : List WatchResponse) :
    next client (wresp :: rest) = (.result r, rest) := by
  unfold next
  rw [herr, hevents]
  dsimp only
  rw [scanEvents, scanEvent_of_result hclient hr]

/-- `Next` returns the result of the first response. -/
theorem next_of_reports (hclient : client.Lawful) {wresp : WatchResponse} (hw : Reports client name wresp)
    (rest : List WatchResponse) :
    ∃ r node, next client (wresp :: rest) = (.result r, rest) ∧ Single name r node ∧
      wresp.events.filterMap (eventWrite client) = [resultWrite r node] := by
  obtain ⟨herr, ev, r, node, hevents, hr, hsingle⟩ := hw
  refine ⟨r, node, next_of_event hclient hr herr hevents rest, hsingle, ?_⟩
  rw [hevents, List.filterMap_cons_some (eventWrite_of_single hr hsingle)]
  rfl

theorem advances_next (hclient : client.Lawful) (h : Sound client name st) {wresp : WatchResponse}
    {rest : List WatchResponse} (hresponses : st.responses = wresp :: rest) (now : ℤ) :
    ∃ r, next client st.responses = (.result r, rest) ∧
      Advances client name st { st with
        responses := rest
        selector := { st.selector with
          toCacheSelector := (update st.selector.toCacheSelector now (some r)).1 } } := by
  have hreports := h.responses
  rw [hresponses] at hreports
  obtain ⟨r, node, hnext, hsingle, hwrite⟩ := next_of_reports hclient (hreports wresp List.mem_cons_self) rest
  refine ⟨r, hresponses ▸ hnext, ?_⟩
  obtain ⟨hfiled, keep, hreplica⟩ := h.cached.update hsingle now
  have hlog : (replicaOf client name st).log
      = resultWrite r node :: (rest.flatMap (·.events)).filterMap (eventWrite client) := by
    unfold replicaOf
    dsimp only
    rw [hresponses, List.flatMap_cons, List.filterMap_append, hwrite]
    rfl
  refine ⟨⟨h.stored, fun w hw => hreports w (List.mem_cons_of_mem _ hw), hfiled⟩, ?_⟩
  refine follows_of_step (a := .deliver keep) ?_
  dsimp only [Replica.step]
  rw [hlog]
  unfold replicaOf
  dsimp only
  rw [hreplica]

theorem advances_get (h : Sound client name st) {now answered : ℤ}
    {registry : Except RegistryError (List Service)} (hanswers : Answers client name st.etcd registry) :
    Advances client name st { st with selector := (st.selector.get now answered name registry).selector } := by
  have hwrite := get_write st.selector now answered name registry
  generalize (st.selector.get now answered name registry) = got at hwrite ⊢
  -- the answer of the registry is written, or nothing is
  have hcases : got.selector.toCacheSelector = st.selector.toCacheSelector ∨
      ∃ services, registry = .ok services ∧
        got.selector.toCacheSelector = st.selector.toCacheSelector.set answered name services := by
    unfold Got.write at hwrite
    split at hwrite
    · cases registry with
      | error err => exact .inl hwrite
      | ok services => exact .inr ⟨services, rfl, hwrite⟩
    · exact .inl hwrite
  rcases hcases with hsame | ⟨services, rfl, hset⟩
  · refine ⟨⟨h.stored, h.responses, ?_⟩, follows_of_eq ?_⟩
    · dsimp only
      rw [hsame]
      exact h.cached
    · unfold replicaOf
      dsimp only
      rw [hsame]
  · obtain ⟨hwf, hconsistent, hbyId⟩ := answer_spec h.stored hanswers
    have hcache : got.selector.cache name = some services := by
      rw [hset, cache_set, if_pos rfl]
    refine ⟨⟨h.stored, h.responses, fun l hl => ?_⟩, follows_of_step (a := .load) ?_⟩
    · obtain rfl := Option.some.inj (hcache.symm.trans hl)
      exact ⟨hwf, hconsistent⟩
    · dsimp only [Replica.step]
      unfold replicaOf
      dsimp only
      rw [hcache, Option.map_some, hbyId]

theorem eq_of_mem_query {path : Key} {a b : (_ : Key) × KeyValue × Option ℕ} (ha : a ∈ query etcd path)
    (hb : b ∈ query etcd path) (h : a.1 = b.1) : a = b := by
  obtain ⟨k, v⟩ := a
  obtain ⟨k', v'⟩ := b
  obtain rfl : k = k' := h
  obtain rfl : v = v' := Option.some.inj ((mem_query.mp ha).2.symm.trans (mem_query.mp hb).2)
  rfl

/-- Every step is a step of the replica, or none. -/
theorem advances_step (hclient : client.Lawful) {act : Act} (h : Sound client name st)
    (hstable : Stable client name st act) (hstep : step client name st act = some st') :
    Advances client name st st' := by
  cases act with
  | put k kv lease =>
    obtain ⟨etcd, hput, rfl⟩ := Option.map_eq_some_iff.mp hstep
    obtain ⟨-, rfl⟩ := LeaseStore.put?_eq_some.mp hput
    exact advances_put h hstable
  | delete k revision =>
    obtain rfl := Option.some.inj hstep
    refine advances_remove h revision (fun k' => ?_) fun a ha b hb hak hbk => ?_
    · by_cases hk : k' = k
      · subst hk
        rw [LeaseStore.get_delete_self]
        cases st.etcd.get k' <;> simp
      · rw [LeaseStore.get_delete_of_ne hk]
        cases st.etcd.get k' with
        | none => rfl
        | some v => exact (Option.filter_eq_some_iff.mpr ⟨rfl, by simpa using hk⟩).symm
    · have hkeys : a.1 = b.1 := (of_decide_eq_true hak).trans (of_decide_eq_true hbk).symm
      exact eq_of_mem_query ha hb hkeys
  | grant =>
    obtain rfl := Option.some.inj hstep
    exact advances_of_agree h fun _ _ => rfl
  | expire leaseID revision =>
    obtain rfl := Option.some.inj hstep
    refine advances_remove h revision (fun k => ?_) fun a ha b hb hal hbl => ?_
    · have hfilter : (st.etcd.expire leaseID).get k = (st.etcd.get k).filter fun v => v.2 != some leaseID :=
        GoMap.lookup_filter _ _ _
      rw [hfilter]
      congr 1
      funext v
      by_cases hv : v.2 = some leaseID <;> simp [hv]
    · obtain ⟨hpath, hget⟩ := mem_query.mp ha
      obtain ⟨hpath', hget'⟩ := mem_query.mp hb
      refine eq_of_mem_query ha hb (hstable a.1 b.1 a.2.1 b.2.1 hpath hpath' ?_ ?_)
      · rw [hget, ← of_decide_eq_true hal]
      · rw [hget', ← of_decide_eq_true hbl]
  | next now =>
    unfold step at hstep
    dsimp only at hstep
    cases hresponses : st.responses with
    | nil =>
      rw [hresponses] at hstep
      cases hstep
    | cons wresp rest =>
      obtain ⟨r, hnext, hadvances⟩ := advances_next hclient h hresponses now
      rw [hnext] at hstep
      obtain rfl := Option.some.inj hstep
      exact hadvances
  | get now answered registry =>
    obtain rfl := Option.some.inj hstep
    exact advances_get h hstable

/-! ### Runs -/

theorem advances_of_run (hclient : client.Lawful) {acts : List Act} (h : Sound client name st)
    (halong : Lts.Along (step client name) (Stable client name) st acts)
    (hrun : Lts.run (step client name) st acts = some st') : Advances client name st st' := by
  refine Lts.run_invariant (P := Advances client name st) (fun s act s' hs hstable hstep => ?_)
    ⟨h, follows_of_eq rfl⟩ halong hrun
  obtain ⟨hsound, hfollows⟩ := hs
  obtain ⟨hsound', hfollows'⟩ := advances_step hclient hsound hstable hstep
  exact ⟨hsound', hfollows.trans hfollows'⟩

theorem Begun.sound (h : Begun client name st) :
    Sound client name st ∧ Replica.Coherent (replicaOf client name st) := by
  have hentry : ∀ services, st.selector.cache name = some services →
      EntryWf name services ∧ Consistent services ∧ byId services = content client name st.etcd := by
    intro services hs
    obtain ⟨hw, htuples⟩ := h.cached services hs
    exact ⟨hw, entry_of_tuples h.stored hw htuples⟩
  have hlog : (replicaOf client name st).log = [] := by
    unfold replicaOf
    dsimp only
    rw [h.responses]
    rfl
  refine ⟨⟨h.stored, ?_, fun services hs => ⟨(hentry services hs).1, (hentry services hs).2.1⟩⟩, ⟨?_, ?_⟩⟩
  · rw [h.responses]
    exact fun _ hw => absurd hw List.not_mem_nil
  · rw [hlog]
    exact ⟨_, rfl⟩
  · intro f hf
    obtain ⟨services, hs, rfl⟩ := Option.map_eq_some_iff.mp hf
    rw [hlog]
    exact (hentry services hs).2.2

/-- When nothing is on its way, the entry has the nodes that `GetService` finds. -/
theorem agrees_of_quiet (h : Sound client name st) (hcoherent : Replica.Coherent (replicaOf client name st))
    (hquiet : st.responses = []) :
    Agrees st.selector.toCacheSelector name { p | p ∈ nodesOf (published client name st.etcd) } := by
  intro services hs
  obtain ⟨hw, hconsistent⟩ := h.cached services hs
  refine ⟨hw, ?_⟩
  have hlog : (replicaOf client name st).log = [] := by
    unfold replicaOf
    dsimp only
    rw [hquiet]
    rfl
  have hbyId : byId services = content client name st.etcd :=
    hcoherent.replica_eq hlog (Option.map_eq_some_iff.mpr ⟨services, hs, rfl⟩)
  ext ⟨version, node⟩
  rw [hconsistent.mem_tuples_iff hw, hbyId]
  exact (mem_published h.stored).symm

/-- What is on its way brings the entry up to date. -/
theorem agrees_of_drain (hclient : client.Lawful) (h : Sound client name st)
    (hcoherent : Replica.Coherent (replicaOf client name st)) (now : ℕ → ℤ) :
    Agrees (feed st.selector.toCacheSelector now (drain client st.responses)) name
      { p | p ∈ nodesOf (published client name st.etcd) } := by
  generalize hresponses : st.responses = responses
  induction responses generalizing st now with
  | nil =>
    rw [drain_eq]
    exact agrees_of_quiet h hcoherent hresponses
  | cons wresp rest ih =>
    obtain ⟨r, hnext, hsound, hfollows⟩ := advances_next hclient h hresponses (now 0)
    rw [hresponses] at hnext
    rw [drain_eq, hnext]
    exact ih hsound (hcoherent.of_reachable hfollows) (fun i => now (i + 1)) rfl

/-- A look-up that does not fail answers with the entry, or with what the registry says. -/
theorem get_services {c : WatchingSelector} {now answered : ℤ} {registry : Except RegistryError (List Service)}
    (hreached : ∀ text, registry ≠ .error (.other text))
    (h : (c.get now answered name registry).services = .ok services) :
    c.cache name = some services ∨ registry = .ok services := by
  have hask : ∀ c : WatchingSelector,
      (c.ask answered name registry).1.mapError GetError.registry = .ok services →
      registry = .ok services := by
    intro c hc
    cases registry with
    | error err => cases hc
    | ok l => exact congrArg Except.ok (Except.ok.inj hc)
  have hrenew : ∀ c : WatchingSelector, (c.renew answered name registry).1 = .ok services →
      registry = .ok services := by
    intro c hc
    cases registry with
    | error err =>
      cases err with
      | notFound => cases hc
      | other text => exact absurd rfl (hreached text)
    | ok l => exact congrArg Except.ok (Except.ok.inj hc)
  unfold WatchingSelector.get at h
  dsimp only at h
  cases hs : c.cache name with
  | none =>
    rw [hs] at h
    exact .inr (hask _ h)
  | some l =>
    rw [hs] at h
    dsimp only at h
    split at h
    · exact .inr (hask _ h)
    · split at h
      · exact .inr (hrenew _ h)
      · split at h
        · rw [cp_eq] at h
          exact .inl (congrArg some (Except.ok.inj h))
        · exact .inr (hrenew _ h)

/-- A put never drops the entry. -/
theorem update_isSome {c : CacheSelector} {r : Result} {node : Node} (h : Single name r node)
    (haction : r.action ≠ .delete) (hw : EntryWf name services) (hs : c.cache name = some services) (now : ℤ) :
    ((update c now (some r)).1.cache name).isSome = true := by
  have hname := h.named
  subst hname
  obtain ⟨services', hset, -⟩ := updateNodes_spec c now hw
  have hcached : (updateNodes c now services r.service).cache r.service.name = some services' := by
    rw [hset, cache_set, if_pos rfl]
  rw [update_cached c now hs, if_neg (by simp [h.nodes])]
  cases hr : r.action with
  | create => exact hcached ▸ rfl
  | update => exact hcached ▸ rfl
  | delete => exact absurd hr haction
  | other text => exact absurd hr (h.action text)

end Refinement

/-! ## Sample data -/

def chatService (version : String) (node : Node) : Service := { name := "chat", version, nodes := [node] }

/-- A client of etcd with three values, whose predicates compare the revisions as those of the library do. -/
def chatClient : Client where
  decode bytes :=
    if bytes = [1] then some (chatService "1" firstNode)
    else if bytes = [2] then some (chatService "1" secondNode)
    else if bytes = [3] then some (chatService "2" firstNode)
    else none
  isCreate ev := ev.type = .put && ev.kv.createRevision = ev.kv.modRevision
  isModify ev := ev.type = .put && ev.kv.createRevision ≠ ev.kv.modRevision

theorem chatClient_lawful : chatClient.Lawful := by
  intro ev hev
  simp [chatClient, hev]

def chatStart : State where
  etcd := LeaseStore.empty
  responses := []
  selector :=
    { cache := fun _ => none, ttls := fun _ => none, ttl := 60, watcher := false, watched := fun _ => false }

theorem chatStart_begun : Begun chatClient "chat" chatStart where
  responses := rfl
  stored k v _ hv := by cases hv
  cached services hs := by cases hs

def firstKey : Key := nodePath "chat" "a1"
def secondKey : Key := nodePath "chat" "a2"

def chatActs : List Act :=
  [.put firstKey ⟨1, 1, [1]⟩ none, .get 0 0 (.ok [chatService "1" firstNode]),
    .put secondKey ⟨2, 2, [2]⟩ none, .delete firstKey 3, .next 1]

theorem chatActs_stable : Lts.Along (step chatClient "chat") (Stable chatClient "chat") chatStart chatActs := by
  refine ⟨fun _ => ⟨chatService "1" firstNode, rfl, ⟨rfl, firstNode, rfl, rfl⟩, ?_⟩, fun s hs => ?_⟩
  · rintro old ⟨v, hv, -⟩
    cases hv
  obtain rfl := Option.some.inj hs
  refine ⟨rfl, fun s hs => ?_⟩
  obtain rfl := Option.some.inj hs
  refine ⟨fun _ => ⟨chatService "1" secondNode, rfl, ⟨rfl, secondNode, rfl, rfl⟩, ?_⟩, fun s hs => ?_⟩
  · rintro old ⟨v, hv, -⟩
    have hnone : ((LeaseStore.empty : LeaseStore Key KeyValue).put firstKey ⟨1, 1, [1]⟩ none).get secondKey
        = none := rfl
    cases hnone.symm.trans hv
  obtain rfl := Option.some.inj hs
  exact ⟨trivial, fun _ _ => ⟨trivial, fun _ _ => trivial⟩⟩

/-- The first node is registered, and the cache has it. -/
def chatCached : State where
  etcd := (LeaseStore.empty : LeaseStore Key KeyValue).put firstKey ⟨1, 1, [1]⟩ none
  responses := []
  selector := { chatStart.selector with
    toCacheSelector := chatStart.selector.toCacheSelector.set 0 "chat" [chatService "1" firstNode] }

theorem registered_firstKey (version : String) : Registered "chat" firstKey (chatService version firstNode) :=
  ⟨rfl, firstNode, rfl, rfl⟩

theorem chatCached_begun : Begun chatClient "chat" chatCached where
  responses := rfl
  stored := chatStart_begun.stored.put rfl (registered_firstKey "1")
  cached services hs := by
    obtain rfl : [chatService "1" firstNode] = services := Option.some.inj hs
    exact ⟨⟨by simp [chatService], by simp [Distinct]⟩, tuples_of_answer rfl⟩

end Vmqant.Selector.Etcdv3Cache
