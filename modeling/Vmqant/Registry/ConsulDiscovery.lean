import Vmqant.Common.Lts
import Vmqant.Registry.ConsulRegistry

/-!
# What is registered is discovered

`Register` trusts the hash that it keeps for a name, so the hash has to say what the agent has under the id
of the node. It does as long as no other service is registered under the id, and no registration that is
reported as failed replaces a service whose hash is kept. Then a service whose `Register` has returned `nil`
is at the agent, passing, and `GetService` gives its node under its version.
-/

namespace Vmqant.Registry.Consul

open Lts HealthAgent

variable {η : Type} {cfg : Config η} {S : Set VersionedService}

/-- The services of one caller: the hash tells them apart, and a node id belongs to one name. -/
structure Owned (cfg : Config η) (S : Set VersionedService) : Prop where
  hash : ∀ s ∈ S, ∀ t ∈ S, ∀ h, cfg.hash s = .ok h → cfg.hash t = .ok h → s = t
  ids : ∀ s ∈ S, ∀ t ∈ S, ∀ node ∈ s.nodes.head?, ∀ node' ∈ t.nodes.head?, node.id = node'.id → s.name = t.name

/-- The hash of the service is kept. -/
def Trusted (cfg : Config η) (st : State η) (t : VersionedService) : Prop :=
  ∃ h, cfg.hash t = .ok h ∧ st.register t.name = some h

/-- What `Register` asks for, with some TTL and some order of the metadata. -/
def Describes (cfg : Config η) (t : VersionedService) (node : Node) (asr : AgentServiceRegistration) : Prop :=
  ∃ ttl md, md.toFinmap = node.metadata ∧ asr = registration cfg t node ttl md

/-- The agent has the service, and it has passed its check. -/
def Registered (cfg : Config η) (st : State η) (s : VersionedService) : Prop :=
  ∃ node ∈ s.nodes.head?, ∃ asr, st.agent node.id = some ⟨asr, some ⟨true, .passing⟩⟩ ∧ Describes cfg s node asr

/-- The condition on a step: the caller registers services of `S`, no other client changes them, and a
registration that is reported as failed leaves those with a kept hash. -/
def Safe (cfg : Config η) (S : Set VersionedService) (st : State η) (a : Act) : Prop :=
  match st.pc, a with
  | _, .call (.register s _) => s ∈ S
  | _, .event (.other id _) => ∀ t ∈ S, ∀ node ∈ t.nodes.head?, node.id ≠ id
  | .put s node _, .reply (.error _ true) _ _ =>
    ∀ t ∈ S, Trusted cfg st t → t ≠ s → ∀ node' ∈ t.nodes.head?, node'.id ≠ node.id
  | _, _ => True

/-! ## The invariant -/

/-- What the agent has under the id of a trusted service is that service. -/
def Sound (cfg : Config η) (S : Set VersionedService) (st : State η) : Prop :=
  ∀ t ∈ S, Trusted cfg st t → ∀ node ∈ t.nodes.head?, ∀ e, st.agent node.id = some e →
    Describes cfg t node e.service

/-- What the call under way knows. -/
def PcSound (cfg : Config η) (S : Set VersionedService) (st : State η) : Prop :=
  match st.pc with
  | .idle | .remove _ _ => True
  | .check s node _ | .pass s node _ => s ∈ S ∧ node ∈ s.nodes.head? ∧ Trusted cfg st s
  | .put s node _ => s ∈ S ∧ node ∈ s.nodes.head? ∧ ∃ h, cfg.hash s = .ok h

structure Inv (cfg : Config η) (S : Set VersionedService) (st : State η) : Prop where
  sound : Sound cfg S st
  pc : PcSound cfg S st
  returned : ∀ s ttl, st.returned = some (.register s ttl, none) → ttl ≠ 0 → Registered cfg st s

section Step

variable {st st' : State η} {s : VersionedService} {node : Node} {ttl : ℤ}

theorem inv_init : Inv cfg S State.init where
  sound := by
    rintro t - ⟨h, -, hreg⟩
    cases hreg
  pc := trivial
  returned := by
    intro s ttl h
    cases h

/-- Services that stay under their ids are still those that they were. -/
theorem Sound.keeps (h : Sound cfg S st) (htrust : ∀ t ∈ S, Trusted cfg st' t → Trusted cfg st t)
    (hkeeps : ∀ t ∈ S, ∀ node ∈ t.nodes.head?, Keeps st.agent st'.agent node.id) : Sound cfg S st' := by
  intro t ht htrusted node hnode e' he'
  obtain ⟨e, he, heq⟩ := hkeeps t ht node hnode e' he'
  rw [← heq]
  exact h t ht (htrust t ht htrusted) node hnode e he

/-- A call ends with an error. -/
theorem Inv.ret_error (h : Sound cfg S st) (c : Call) (err : String) : Inv cfg S (st.ret c (some err)) where
  sound := h
  pc := trivial
  returned := by
    intro s ttl hret
    cases (Prod.mk.inj (Option.some.inj hret)).2

theorem Inv.goto {pc : Pc} (h : Sound cfg S st) (hpc : PcSound cfg S (st.goto pc)) : Inv cfg S (st.goto pc) where
  sound := h
  pc := hpc
  returned := by
    intro s ttl hret
    cases hret

/-- What becomes of the agent when `PassTTL` returns without an error. -/
theorem passTTL_none {agent agent' : HealthAgent String AgentServiceRegistration} {id : String} {r : Reply}
    (h : passTTL agent id r = some (agent', none)) : agent.pass? id = some agent' := by
  unfold passTTL at h
  cases r with
  | ok =>
    obtain ⟨agent₁, hpass, heq⟩ := Option.map_eq_some_iff.mp h
    rw [hpass, (Prod.mk.inj heq).1]
  | error text served => cases (Prod.mk.inj (Option.some.inj h)).2

theorem keeps_passTTL {agent agent' : HealthAgent String AgentServiceRegistration} {id : String} {r : Reply}
    {err : Option String} (h : passTTL agent id r = some (agent', err)) (id' : String) :
    Keeps agent agent' id' := by
  unfold passTTL at h
  cases r with
  | ok =>
    obtain ⟨agent₁, hpass, heq⟩ := Option.map_eq_some_iff.mp h
    exact (Prod.mk.inj heq).1 ▸ keeps_pass? hpass id'
  | error text served =>
    rw [← (Prod.mk.inj (Option.some.inj h)).1]
    cases served with
    | false => exact Keeps.of_eq rfl
    | true =>
      cases hpass : agent.pass? id with
      | none => exact Keeps.of_eq rfl
      | some agent₁ => exact keeps_pass? hpass id'

/-- A trusted service whose check has been passed is registered. -/
theorem registered_of_pass (h : Sound cfg S st) (hs : s ∈ S) (htrust : Trusted cfg st s)
    (hnode : node ∈ s.nodes.head?) {agent : HealthAgent String AgentServiceRegistration}
    (hpass : st.agent.pass? node.id = some agent) (c : Call) (err : Option String) :
    Registered cfg ({ st with agent }.ret c err) s := by
  obtain ⟨asr, status, hid, rfl⟩ := pass?_eq_some hpass
  exact ⟨node, hnode, asr, Function.update_self _ _ _, h s hs htrust node hnode _ hid⟩

/-- A registration of `s` is served: the services that are trusted afterwards are `s`, or were trusted before
and have another id. -/
theorem Sound.serve (h : Sound cfg S st) (hnode : node ∈ s.nodes.head?) {md : AList fun _ : String => String}
    (hmd : md.toFinmap = node.metadata) {status : Status}
    (hagent : st'.agent = serve st.agent (registration cfg s node ttl md) status)
    (htrust : ∀ t ∈ S, Trusted cfg st' t →
      t = s ∨ Trusted cfg st t ∧ ∀ node' ∈ t.nodes.head?, node'.id ≠ node.id) : Sound cfg S st' := by
  intro t ht htrusted node' hnode' e' he'
  rw [hagent] at he'
  rcases htrust t ht htrusted with rfl | ⟨htrusted, hne⟩
  · obtain rfl := Option.some.inj (hnode.symm.trans hnode')
    unfold Consul.serve HealthAgent.register registration at he'
    rw [Function.update_self] at he'
    obtain rfl := Option.some.inj he'
    exact ⟨ttl, md, hmd, rfl⟩
  · obtain ⟨e, he, heq⟩ := keeps_register st.agent (hne node' hnode') e' he'
    rw [← heq]
    exact h t ht htrusted node' hnode' e he

theorem trusted_update (howned : Owned cfg S) (hs : s ∈ S) (hnode : node ∈ s.nodes.head?) {η₀ : η}
    (hhash : cfg.hash s = .ok η₀) {t : VersionedService} (ht : t ∈ S)
    (hreg : st'.register = Function.update st.register s.name (some η₀)) (htrusted : Trusted cfg st' t) :
    t = s ∨ Trusted cfg st t ∧ ∀ node' ∈ t.nodes.head?, node'.id ≠ node.id := by
  obtain ⟨h, hh, hname⟩ := htrusted
  rw [hreg] at hname
  by_cases heq : t.name = s.name
  · rw [heq, Function.update_self] at hname
    obtain rfl := Option.some.inj hname
    exact .inl (howned.hash t ht s hs _ hh hhash)
  · rw [Function.update_of_ne heq] at hname
    refine .inr ⟨⟨h, hh, hname⟩, fun node' hnode' hid => ?_⟩
    exact heq (howned.ids t ht s hs node' hnode' node hnode hid)

theorem inv_event (hinv : Inv cfg S st) (ev : HealthAgent.Event String AgentServiceRegistration)
    (hev : ∀ t ∈ S, ∀ node ∈ t.nodes.head?, ∀ e, ev ≠ .other node.id e) :
    Inv cfg S { st with agent := st.agent.onEvent ev, returned := none } where
  sound := hinv.sound.keeps (fun _ _ h => h) fun t ht node hnode => keeps_onEvent (hev t ht node hnode)
  pc := hinv.pc
  returned := by
    intro s ttl h
    cases h

/-- The check of a trusted service is passed, and the call returns. -/
theorem inv_passed (hinv : Inv cfg S st) (hs : s ∈ S) (hnode : node ∈ s.nodes.head?) (htrust : Trusted cfg st s)
    {r : Reply} {agent : HealthAgent String AgentServiceRegistration}
    (hpass : passTTL st.agent node.id r = some (agent, none)) :
    Inv cfg S ({ st with agent }.ret (.register s ttl) none) where
  sound := hinv.sound.keeps (fun _ _ h => h) fun _ _ _ _ => keeps_passTTL hpass _
  pc := trivial
  returned := by
    intro s' ttl' hret _
    obtain ⟨rfl, -⟩ := Call.register.inj (Prod.mk.inj (Option.some.inj hret)).1
    exact registered_of_pass hinv.sound hs htrust hnode (passTTL_none hpass) _ _

/-- A registration is served. -/
theorem inv_put (howned : Owned cfg S) (hinv : Inv cfg S st) (hs : s ∈ S) (hnode : node ∈ s.nodes.head?)
    (hhash : ∃ h, cfg.hash s = .ok h) {md : AList fun _ : String => String} (hmd : md.toFinmap = node.metadata)
    {status : Status} {st₁ : State η} (hst₁ : st₁ =
      { st with
        agent := serve st.agent (registration cfg s node ttl md) status
        register := Function.update st.register s.name (cfg.hash s).toOption })
    (hstep : (if ttl = 0 then some (st₁.ret (.register s ttl) none) else some (st₁.goto (.pass s node ttl)))
      = some st') : Inv cfg S st' := by
  obtain ⟨h, hh⟩ := hhash
  have hreg : st₁.register = Function.update st.register s.name (some h) := by
    rw [hst₁, hh]
    rfl
  have hsound : Sound cfg S st₁ :=
    hinv.sound.serve hnode hmd (by rw [hst₁]) fun t ht htrusted => trusted_update howned hs hnode hh ht hreg htrusted
  split at hstep
  · next hzero =>
    obtain rfl := Option.some.inj hstep
    refine ⟨hsound, trivial, fun s' ttl' hret hne => ?_⟩
    obtain ⟨-, rfl⟩ := Call.register.inj (Prod.mk.inj (Option.some.inj hret)).1
    exact absurd hzero hne
  · obtain rfl := Option.some.inj hstep
    refine Inv.goto hsound ⟨hs, hnode, h, hh, ?_⟩
    change st₁.register s.name = some h
    rw [hreg, Function.update_self]

/-- The end of a request keeps the invariant. -/
theorem inv_reply (howned : Owned cfg S) (hinv : Inv cfg S st) {r : Reply}
    {md : AList fun _ : String => String} {status : Status} (hsafe : Safe cfg S st (.reply r md status))
    (hstep : onReply cfg st r md status = some st') : Inv cfg S st' := by
  have hpc := hinv.pc
  unfold PcSound at hpc
  unfold onReply at hstep
  cases hpc' : st.pc with
  | idle =>
    rw [hpc'] at hstep
    cases hstep
  | check s node ttl =>
    rw [hpc'] at hpc hstep
    obtain ⟨hs, hnode, htrust⟩ := hpc
    obtain ⟨⟨agent, err⟩, hpass, hstep⟩ := Option.bind_eq_some_iff.mp hstep
    cases err with
    | none =>
      obtain rfl := Option.some.inj hstep
      exact inv_passed hinv hs hnode htrust hpass
    | some err =>
      obtain rfl := Option.some.inj hstep
      obtain ⟨h, hh, -⟩ := htrust
      refine Inv.goto ?_ ⟨hs, hnode, h, hh⟩
      exact hinv.sound.keeps (fun _ _ h => h) fun _ _ _ _ => keeps_passTTL hpass _
  | put s node ttl =>
    rw [hpc'] at hpc hstep
    obtain ⟨hs, hnode, hhash⟩ := hpc
    dsimp only at hstep
    split at hstep
    · cases hstep
    next hmd =>
    have hmd := not_not.mp hmd
    cases r with
    | ok => exact inv_put howned hinv hs hnode hhash hmd rfl hstep
    | error text served =>
      obtain rfl := Option.some.inj hstep
      refine Inv.ret_error ?_ _ _
      cases served with
      | false => exact hinv.sound
      | true =>
        -- the hash that is kept is that of `s`, or of a service with another id
        unfold Safe at hsafe
        rw [hpc'] at hsafe
        refine hinv.sound.serve hnode hmd rfl fun t ht htrusted => ?_
        by_cases heq : t = s
        · exact .inl heq
        · exact .inr ⟨htrusted, hsafe t ht htrusted heq⟩
  | pass s node ttl =>
    rw [hpc'] at hpc hstep
    obtain ⟨hs, hnode, htrust⟩ := hpc
    obtain ⟨⟨agent, err⟩, hpass, hstep⟩ := Option.bind_eq_some_iff.mp hstep
    obtain rfl := Option.some.inj hstep
    cases err with
    | none => exact inv_passed hinv hs hnode htrust hpass
    | some err =>
      refine Inv.ret_error ?_ _ _
      exact hinv.sound.keeps (fun _ _ h => h) fun _ _ _ _ => keeps_passTTL hpass _
  | remove s node =>
    rw [hpc'] at hstep
    have hremoved : Sound cfg S { st with agent := st.agent.deregister node.id } :=
      hinv.sound.keeps (fun _ _ h => h) fun _ _ _ _ => keeps_deregister _ _ _
    cases r with
    | error text served =>
      obtain rfl := Option.some.inj hstep
      refine Inv.ret_error ?_ _ _
      cases served with
      | false => exact hinv.sound
      | true => exact hremoved
    | ok =>
      obtain rfl := Option.some.inj hstep
      refine ⟨hremoved, trivial, fun s' ttl' hret _ => ?_⟩
      cases (Prod.mk.inj (Option.some.inj hret)).1

variable [DecidableEq η]

theorem inv_call (hinv : Inv cfg S st) (c : Call) (hc : ∀ s ttl, c = .register s ttl → s ∈ S) :
    Inv cfg S (beginCall cfg st c) := by
  cases c with
  | register s ttl =>
    unfold beginCall
    dsimp only
    cases hnodes : s.nodes with
    | nil => exact Inv.ret_error hinv.sound _ _
    | cons node rest =>
      have hhead : node ∈ s.nodes.head? := by
        rw [hnodes]
        rfl
      dsimp only
      cases hhash : cfg.hash s with
      | error err => exact Inv.ret_error hinv.sound _ _
      | ok h =>
        dsimp only
        split
        · next hreg => exact Inv.goto hinv.sound ⟨hc s ttl rfl, hhead, h, hhash, hreg⟩
        · exact Inv.goto hinv.sound ⟨hc s ttl rfl, hhead, h, hhash⟩
  | deregister s =>
    unfold beginCall
    dsimp only
    cases s.nodes with
    | nil => exact Inv.ret_error hinv.sound _ _
    | cons node rest =>
      refine Inv.goto (hinv.sound.keeps ?_ fun _ _ _ _ => Keeps.of_eq rfl) trivial
      -- the hash under the name is gone
      rintro t - ⟨h, hh, hname⟩
      dsimp only at hname
      by_cases heq : t.name = s.name
      · rw [heq, Function.update_self] at hname
        cases hname
      · rw [Function.update_of_ne heq] at hname
        exact ⟨h, hh, hname⟩

theorem inv_step (howned : Owned cfg S) (hinv : Inv cfg S st) {a : Act} (hsafe : Safe cfg S st a)
    (hstep : step cfg st a = some st') : Inv cfg S st' := by
  cases a with
  | call c =>
    have hpc : st.pc = .idle ∧ some (beginCall cfg st c) = some st' := by
      unfold step at hstep
      dsimp only at hstep
      split at hstep
      · next hidle => exact ⟨hidle, hstep⟩
      · cases hstep
    obtain rfl := Option.some.inj hpc.2
    refine inv_call hinv c ?_
    rintro s ttl rfl
    unfold Safe at hsafe
    rwa [hpc.1] at hsafe
  | reply r md status => exact inv_reply howned hinv hsafe hstep
  | event ev =>
    obtain rfl := Option.some.inj hstep
    refine inv_event hinv ev fun t ht node hnode e heq => ?_
    subst heq
    have hother : ∀ t ∈ S, ∀ node' ∈ t.nodes.head?, node'.id ≠ node.id := by
      unfold Safe at hsafe
      cases hpc : st.pc <;> rw [hpc] at hsafe <;> exact hsafe
    exact hother t ht node hnode rfl

end Step

/-! ## What `GetService` gives -/

section Discovery

variable {c : TagCodec} {serviceMap serviceMap' : List VersionedService} {e : CatalogEntry} {name : String}
  {version : List UInt8} {node : Node}

/-- The services are of the name, and the one of the version has the node. -/
def HasNode (services : List VersionedService) (name : String) (version : List UInt8) (node : Node) : Prop :=
  ∃ svc ∈ services, svc.name = name ∧ svc.version = version ∧ node ∈ svc.nodes

/-- The node that the loop makes of an entry with this metadata. -/
def entryNode (e : CatalogEntry) (metadata : Metadata) : Node where
  id := e.id
  address := if e.address.length = 0 then e.nodeAddress else e.address
  port := e.port
  metadata

/-- `addService` in its two parts. -/
theorem addService_ok (h : addService c serviceMap e = .ok serviceMap') :
    ∃ made, withService c serviceMap e (e.version c) = .ok made ∧
      (e.del = true → serviceMap' = made) ∧
      (e.del = false → ∃ md, indexedMetadata c e.tags = .ok md ∧ serviceMap' = made.map fun svc =>
        if svc.version = e.version c then { svc with nodes := svc.nodes ++ [entryNode e md] } else svc) := by
  rw [addService_eq, Except.bind_eq_ok_iff] at h
  obtain ⟨made, hmade, hnode⟩ := h
  refine ⟨made, hmade, fun hdel => ?_, fun hdel => ?_⟩
  · rw [hdel] at hnode
    exact (Except.ok.inj hnode).symm
  · rw [hdel] at hnode
    obtain ⟨md, hmd, hmap⟩ := Except.bind_eq_ok_iff.mp hnode
    exact ⟨md, hmd, (Except.ok.inj hmap).symm⟩

/-- A service that is there stays, and gets nodes only. -/
theorem mem_withService (h : withService c serviceMap e version = .ok serviceMap') {svc : VersionedService} :
    svc ∈ serviceMap' → svc ∈ serviceMap ∨ svc.name = e.service := by
  unfold withService at h
  split at h
  · obtain rfl := Except.ok.inj h
    exact .inl
  · obtain ⟨en, -, hmap⟩ := Except.bind_eq_ok_iff.mp h
    obtain rfl := Except.ok.inj hmap
    intro hmem
    rcases List.mem_append.mp hmem with hmem | hmem
    · exact .inl hmem
    · rw [List.mem_singleton.mp hmem]
      exact .inr rfl

theorem subset_withService (h : withService c serviceMap e version = .ok serviceMap') :
    serviceMap ⊆ serviceMap' := by
  unfold withService at h
  split at h
  · obtain rfl := Except.ok.inj h
    exact List.Subset.refl _
  · obtain ⟨en, -, hmap⟩ := Except.bind_eq_ok_iff.mp h
    obtain rfl := Except.ok.inj hmap
    exact List.subset_append_left _ _

theorem name_addService (hname : ∀ svc ∈ serviceMap, svc.name = name) (he : e.service = name)
    (h : addService c serviceMap e = .ok serviceMap') : ∀ svc ∈ serviceMap', svc.name = name := by
  obtain ⟨made, hmade, hdel, hnode⟩ := addService_ok h
  have hmadeName : ∀ svc ∈ made, svc.name = name := by
    intro svc hsvc
    rcases mem_withService hmade hsvc with hsvc | hsvc
    · exact hname svc hsvc
    · exact hsvc.trans he
  cases hd : e.del with
  | true => exact hdel hd ▸ hmadeName
  | false =>
    obtain ⟨md, -, rfl⟩ := hnode hd
    intro svc hsvc
    obtain ⟨svc', hsvc', rfl⟩ := List.mem_map.mp hsvc
    split
    · exact hmadeName svc' hsvc'
    · exact hmadeName svc' hsvc'

theorem HasNode.addService (hhas : HasNode serviceMap name version node)
    (h : addService c serviceMap e = .ok serviceMap') : HasNode serviceMap' name version node := by
  obtain ⟨svc, hsvc, hname, hversion, hnode⟩ := hhas
  obtain ⟨made, hmade, hdel, hmap⟩ := addService_ok h
  have hmem : svc ∈ made := subset_withService hmade hsvc
  cases hd : e.del with
  | true => exact hdel hd ▸ ⟨svc, hmem, hname, hversion, hnode⟩
  | false =>
    obtain ⟨md, -, rfl⟩ := hmap hd
    refine ⟨_, List.mem_map.mpr ⟨svc, hmem, rfl⟩, ?_⟩
    split
    · exact ⟨hname, hversion, List.mem_append_left _ hnode⟩
    · exact ⟨hname, hversion, hnode⟩

/-- The round of an entry that is not critical puts its node there. -/
theorem hasNode_addService (hname : ∀ svc ∈ serviceMap, svc.name = name) (he : e.service = name)
    (hdel : e.del = false) {md : Metadata} (hmd : decodeMetadata c e.tags = .ok md)
    (h : addService c serviceMap e = .ok serviceMap') :
    HasNode serviceMap' name (e.version c) (entryNode e md) := by
  have hnames := name_addService hname he h
  obtain ⟨made, hmade, -, hmap⟩ := addService_ok h
  obtain ⟨md', hmd', rfl⟩ := hmap hdel
  have hdecode : indexedMetadata c e.tags = decodeMetadata c e.tags := by
    unfold indexedMetadata decodeMetadata
    rw [indexedTags_eq]
  obtain rfl : md' = md := Except.ok.inj (hmd'.symm.trans (hdecode.trans hmd))
  have hversion : e.version c ∈ versions made := (mem_versions_withService hmade _).mpr (.inl rfl)
  obtain ⟨svc, hsvc, hv⟩ := List.mem_map.mp hversion
  have hmem := List.mem_map_of_mem (f := fun svc : VersionedService =>
    if svc.version = e.version c then { svc with nodes := svc.nodes ++ [entryNode e md'] } else svc) hsvc
  refine ⟨_, hmem, hnames _ hmem, ?_⟩
  rw [if_pos hv]
  exact ⟨hv, List.mem_append_right _ (List.mem_singleton_self _)⟩

theorem hasNode_foldlM {entries : List CatalogEntry} (hentries : ∀ e ∈ entries, e.service = name)
    (hname : ∀ svc ∈ serviceMap, svc.name = name) {md : Metadata}
    (hsome : HasNode serviceMap name version node ∨ ∃ e ∈ entries, e.del = false ∧
      e.version c = version ∧ decodeMetadata c e.tags = .ok md ∧ entryNode e md = node)
    {services : List VersionedService} (h : entries.foldlM (addService c) serviceMap = .ok services) :
    HasNode services name version node := by
  induction entries generalizing serviceMap with
  | nil =>
    obtain rfl := Except.ok.inj h
    rcases hsome with hhas | ⟨e, he, -⟩
    · exact hhas
    · cases he
  | cons e entries ih =>
    obtain ⟨he, hentries⟩ := List.forall_mem_cons.mp hentries
    rw [List.foldlM_cons, Except.bind_eq_ok_iff] at h
    obtain ⟨serviceMap', hok, h⟩ := h
    refine ih hentries (name_addService hname he hok) ?_ h
    rcases hsome with hhas | ⟨e', he', hdel, rfl, hmd, rfl⟩
    · exact .inl (hhas.addService hok)
    · rcases List.mem_cons.mp he' with rfl | he'
      · exact .inl (hasNode_addService hname he hdel hmd hok)
      · exact .inr ⟨e', he', hdel, rfl, hmd, rfl⟩

theorem entriesSafe_of_forall {entries : List CatalogEntry}
    (h : ∀ e ∈ entries, ['e'.toUInt8] ∉ e.tags ∧ ['t'.toUInt8] ∉ e.tags) (seen : List (List UInt8)) :
    EntriesSafe c seen entries := by
  induction entries generalizing seen with
  | nil => trivial
  | cons e entries ih =>
    obtain ⟨he, hentries⟩ := List.forall_mem_cons.mp h
    exact ⟨fun _ => he.1, fun _ => he.2, ih hentries _⟩

/-- `GetService` returns, and gives the node of every entry of the name that is not critical. -/
theorem hasNode_getService {rsp : List CatalogEntry}
    (htags : ∀ e ∈ rsp, ['e'.toUInt8] ∉ e.tags ∧ ['t'.toUInt8] ∉ e.tags) (he : e ∈ rsp)
    (hservice : e.service = name) (hdel : e.del = false) {md : Metadata}
    (hmd : decodeMetadata c e.tags = .ok md) :
    ∃ services, getService c name (.ok rsp) = .ok (.ok services) ∧
      HasNode services name (e.version c) (entryNode e md) := by
  let entries := rsp.filter fun e => e.service = name
  have hfilter : rsp.foldlM
        (fun serviceMap e => if e.service = name then addService c serviceMap e else pure serviceMap) []
      = entries.foldlM (addService c) [] := by
    simp only [entries, List.foldlM_filter, decide_eq_true_eq]
  have hsafe : EntriesSafe c [] entries :=
    entriesSafe_of_forall (fun e he => htags e (List.mem_of_mem_filter he)) []
  have hreturns : (entries.foldlM (addService c) []).Returns := (foldlM_returns_iff fun _ => Iff.rfl).mpr hsafe
  obtain ⟨services, hservices⟩ := hreturns
  refine ⟨services, ?_, ?_⟩
  · unfold getService
    dsimp only
    rw [hfilter, hservices]
    rfl
  · refine hasNode_foldlM (fun e he => ?_) (List.forall_mem_nil _) (.inr ⟨e, ?_, hdel, rfl, hmd, rfl⟩) hservices
    · exact of_decide_eq_true (List.mem_filter.mp he).2
    · exact List.mem_filter.mpr ⟨he, decide_eq_true hservice⟩

end Discovery

/-! ## Registration and discovery -/

/-- The entry that Consul gives for a service of the agent: the tags come in any order, and the states of the
checks are that of its own and those of its node, which is not critical. -/
structure Lists (nodeAddress : String) (x : Entry AgentServiceRegistration) (e : CatalogEntry) : Prop where
  service : e.service = x.service.name
  id : e.id = x.service.id
  tags : e.tags.Perm x.service.tags
  address : e.address = x.service.address
  port : e.port = x.service.port
  nodeAddress : e.nodeAddress = nodeAddress
  checks : "critical" ∈ e.checks → ∃ check, x.check = some check ∧ check.status = .critical

/-- The answer to a query lists the services of the agent. -/
def Answers (nodeAddress : String) (agent : HealthAgent String AgentServiceRegistration)
    (rsp : List CatalogEntry) : Prop :=
  ∀ id x, agent id = some x → ∃ e ∈ rsp, Lists nodeAddress x e

/-- A node as it is discovered: without an address it gets that of the agent. -/
def discovered (nodeAddress : String) (node : Node) : Node :=
  { node with address := if node.address.length = 0 then nodeAddress else node.address }

/-- A service that is registered is in what `GetService` returns. -/
theorem Registered.hasNode {st : State η} {s : VersionedService} (h : Registered cfg st s)
    (hkeeps : ∀ node ∈ s.nodes.head?, ∀ md, md.toFinmap = node.metadata → cfg.tags.Keeps md s.endpoints)
    {nodeAddress : String} {rsp : List CatalogEntry} (hrsp : Answers nodeAddress st.agent rsp)
    (htags : ∀ e ∈ rsp, ['e'.toUInt8] ∉ e.tags ∧ ['t'.toUInt8] ∉ e.tags) :
    ∃ services, getService cfg.tags s.name (.ok rsp) = .ok (.ok services) ∧
      ∃ node ∈ s.nodes.head?, HasNode services s.name s.version (discovered nodeAddress node) := by
  obtain ⟨node, hnode, asr, hagent, ttl, md, hmd, rfl⟩ := h
  obtain ⟨e, he, hlists⟩ := hrsp node.id _ hagent
  have hkeep := hkeeps node hnode md hmd
  have hmetadata : decodeMetadata cfg.tags e.tags = .ok node.metadata :=
    hmd ▸ decodeMetadata_of_perm hkeep hlists.tags
  have hversion : e.version cfg.tags = s.version :=
    congrArg Prod.fst (decodeVersion_of_perm hkeep hlists.tags)
  have hdel : e.del = false := by
    by_contra hcritical
    have hany : e.del = true := Bool.eq_true_of_not_eq_false hcritical
    obtain ⟨status, hstatus, heq⟩ := List.any_eq_true.mp hany
    obtain rfl := of_decide_eq_true heq
    obtain ⟨check, hcheck, hbad⟩ := hlists.checks hstatus
    obtain rfl := Option.some.inj hcheck
    cases hbad
  obtain ⟨services, hget, hhas⟩ := hasNode_getService htags he hlists.service hdel hmetadata
  have hnodeEq : entryNode e node.metadata = discovered nodeAddress node := by
    unfold entryNode discovered
    rw [hlists.id, hlists.address, hlists.port, hlists.nodeAddress]
    rfl
  rw [hversion, hnodeEq] at hhas
  exact ⟨services, hget, node, hnode, hhas⟩

def chatNode : Node := { id := "chat@1", address := "", port := 80, metadata := Finmap.singleton "a" "b" }

def chatService : VersionedService := { name := "chat", version := version100, endpoints := [], nodes := [chatNode] }

def chatConfig : Config Unit where
  tags := sampleTagCodec
  hash _ := .ok ()
  tcpCheck := none
  connect := false

def chatRun : List Act :=
  let md : AList fun _ : String => String := AList.singleton "a" "b"
  [.call (.register chatService minute), .reply .ok md .critical, .reply .ok md .passing,
    .event (.status "chat@1" .critical), .call (.register chatService minute), .reply .ok md .passing]

def chatRegistration : AgentServiceRegistration :=
  registration chatConfig chatService chatNode minute (AList.singleton "a" "b")

def chatEntry : CatalogEntry where
  service := "chat"
  id := "chat@1"
  tags := chatRegistration.tags
  address := ""
  port := 80
  nodeAddress := "10.0.0.1"
  checks := ["passing"]

theorem chat_owned : Owned chatConfig {chatService} where
  hash := by
    rintro s rfl t rfl - - -
    rfl
  ids := by
    rintro s rfl t rfl - - - - -
    rfl

theorem chat_safe : Along (step chatConfig) (Safe chatConfig {chatService}) State.init chatRun := by
  refine along_of_mem (fun a ha st => ?_) _
  unfold Safe
  simp only [chatRun, List.mem_cons, List.not_mem_nil, or_false] at ha
  rcases ha with rfl | rfl | rfl | rfl | rfl | rfl <;> cases st.pc <;> trivial

theorem chat_keeps : sampleTagCodec.Keeps (AList.singleton "a" "b") [] where
  zlib := sampleZlib_lossless
  metadata := by
    intro kv hkv
    rw [List.mem_singleton.mp hkv]
    exact ⟨jsonAB, by simp [sampleTagCodec], by simp [sampleTagCodec]⟩
  endpoint := List.forall_mem_nil _

end Vmqant.Registry.Consul
