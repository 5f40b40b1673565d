import Vmqant.Common.Counts
import Vmqant.Gate.AgentRun

/-!
# How many agents are connected

`Connect` adds to `agentNum` and `DisConnect` subtracts, each under two flags that `Run` sets at different
points. An agent that comes to `Connect` has both, and keeps them until `DisConnect`; an agent that does not
come to it has a session at most, under an id that no one else has. So the number is that of the agents
that are connected, and of the sessions.
-/

namespace Vmqant.BaseGate

open Lts

variable {ρ σ : Type}

/-! ## The calls of other modules -/

section Calls

namespace SessionImp

variable {s s' : SessionImp}

theorem sessionId_setLocalKV {key value : String} (h : s.setLocalKV key value = some s') :
    s'.sessionId = s.sessionId := by
  obtain ⟨m, -, rfl⟩ := Option.map_eq_some_iff.mp h
  rfl

theorem sessionId_importSettings (settings : Settings) :
    (s.importSettings settings).sessionId = s.sessionId := by
  unfold importSettings
  split
  · rfl
  · rfl

theorem sessionId_setAll {settings : Settings} (h : s.setAll settings = some s') :
    s'.sessionId = s.sessionId := by
  -- each round that does not panic keeps the id
  have hloop : ∀ (entries : List (Sigma fun _ : String => String)) (r : Option SessionImp),
      entries.foldl (fun r e => r.bind fun s => s.setLocalKV e.1 e.2) r = some s' →
        ∃ s₀, r = some s₀ ∧ s'.sessionId = s₀.sessionId := by
    intro entries
    induction entries with
    | nil => exact fun r h => ⟨s', h, rfl⟩
    | cons e entries ih =>
      intro r h
      obtain ⟨s₁, hs₁, heq⟩ := ih _ h
      obtain ⟨s₀, hs₀, hset⟩ := Option.bind_eq_some_iff.mp hs₁
      exact ⟨s₀, hs₀, heq.trans (sessionId_setLocalKV hset)⟩
  obtain ⟨s₀, hs₀, heq⟩ := hloop settings.entries (some s) h
  exact heq.trans (congrArg sessionId (Option.some.inj hs₀).symm)

end SessionImp

/-- A handler with the same sessions under the same ids. -/
structure SameIds (c c' : Handler ρ σ) : Prop where
  sessions : c'.sessions = c.sessions
  agentNum : c'.agentNum = c.agentNum
  protocolOK : ∀ a, (c'.agents a).protocolOK = (c.agents a).protocolOK
  sessionId : ∀ a, (c'.agents a).session.map SessionImp.sessionId
    = (c.agents a).session.map SessionImp.sessionId

variable [DecidableEq ρ] {c : Handler ρ σ}

theorem onSession_sameIds {sessionid : String} {body : SessionImp → Option SessionImp}
    {save : σ → SessionImp → σ} {r : Reply × Handler ρ σ}
    (hbody : ∀ s s', body s = some s' → s'.sessionId = s.sessionId)
    (h : c.onSession sessionid body save = some r) : SameIds c r.2 := by
  unfold Handler.onSession at h
  split at h
  · obtain rfl := Option.some.inj h
    exact ⟨rfl, rfl, fun _ => rfl, fun _ => rfl⟩
  · next a ha =>
    obtain ⟨s, hs, h⟩ := Option.bind_eq_some_iff.mp h
    obtain ⟨s', hs', rfl⟩ := Option.map_eq_some_iff.mp h
    refine ⟨rfl, rfl, fun b => ?_, fun b => ?_⟩
    · dsimp only
      rw [Function.update_apply]
      split
      · next hb => rw [hb]
      · rfl
    · dsimp only
      rw [Function.update_apply]
      split
      · next hb =>
        rw [hb, hs]
        exact congrArg some (hbody s s' hs')
      · rfl

/-- The calls of other modules change what is in a session, but not its id. -/
theorem call_sameIds {g : Gate σ} {s s' : Agents ρ σ} {op : Op ρ}
    (h : Agents.step g s (.call op) = some s') :
    SameIds s.handler s'.handler ∧ s'.pc = s.pc ∧ s'.used = s.used := by
  have hmap : ∀ {r : Option (Reply × Handler ρ σ)}, (∀ p, r = some p → SameIds s.handler p.2) →
      ((r.map fun p => (some p.1, p.2)).map Prod.snd).map
        (fun c => { s with handler := c }) = some s' →
      SameIds s.handler s'.handler ∧ s'.pc = s.pc ∧ s'.used = s.used := by
    intro r hr h
    obtain ⟨c, hc, rfl⟩ := Option.map_eq_some_iff.mp h
    obtain ⟨q, hq, rfl⟩ := Option.map_eq_some_iff.mp hc
    obtain ⟨p, hp, rfl⟩ := Option.map_eq_some_iff.mp hq
    exact ⟨hr p hp, rfl, rfl⟩
  cases op with
  | connect a => cases h
  | disConnect a => cases h
  | bind sessionid userid =>
    refine hmap (fun p hp => onSession_sameIds (fun t t' ht => ?_) hp) h
    dsimp only at ht
    split at ht
    · split at ht
      · obtain rfl := Option.some.inj ht
        rfl
      · obtain rfl := Option.some.inj ht
        exact SessionImp.sessionId_importSettings _
    · obtain rfl := Option.some.inj ht
      rfl
  | unBind sessionid =>
    refine hmap (fun p hp => onSession_sameIds (fun t t' ht => ?_) hp) h
    obtain rfl := Option.some.inj ht
    rfl
  | push sessionid settings =>
    exact hmap (fun p hp => onSession_sameIds (fun t t' ht => SessionImp.sessionId_setAll ht) hp) h
  | set sessionid key value =>
    exact hmap (fun p hp => onSession_sameIds (fun t t' ht => SessionImp.sessionId_setLocalKV ht) hp) h
  | remove sessionid key =>
    refine hmap (fun p hp => onSession_sameIds (fun t t' ht => ?_) hp) h
    obtain rfl := Option.some.inj ht
    rfl

end Calls

/-! ## The invariant -/

/-- The id of the session of an agent. -/
def Handler.idOf (c : Handler ρ σ) (a : ρ) : Option String :=
  (c.agents a).session.map SessionImp.sessionId

theorem Handler.idOf_of_session {c : Handler ρ σ} {a : ρ} {t : SessionImp}
    (ht : (c.agents a).session = some t) : c.idOf a = some t.sessionId := by
  rw [idOf, ht]
  rfl

theorem Handler.exists_session (c : Handler ρ σ) {a : ρ} (h : (c.idOf a).isSome = true) :
    ∃ t, (c.agents a).session = some t ∧ c.idOf a = some t.sessionId := by
  rw [idOf, Option.isSome_map] at h
  obtain ⟨t, ht⟩ := Option.isSome_iff_exists.mp h
  exact ⟨t, ht, idOf_of_session ht⟩

/-- Which of the two flags an agent has, by where it is. -/
def RunPc.Flags (id : Option String) (protocolOK : Bool) : RunPc → Prop
  | .idle | .reading | .checking _ | .creating => id = none ∧ protocolOK = false
  | .created | .acking => id.isSome = true ∧ protocolOK = false
  | .connecting | .listening | .left => id.isSome = true ∧ protocolOK = true
  | .failed => protocolOK = false
  | .closed => True

/-- The agents that are connected are those in the sessions, and are counted. -/
structure Accounts (s : Agents ρ σ) : Prop where
  flags : ∀ a, (s.pc a).Flags (s.handler.idOf a) (s.handler.agents a).protocolOK
  registered : ∀ id a, s.handler.sessions.lookup id = some a ↔
    (s.pc a).Connected ∧ s.handler.idOf a = some id
  used : ∀ a id, s.handler.idOf a = some id → id ∈ s.used
  distinct : ∀ a b id, s.handler.idOf a = some id → s.handler.idOf b = some id → a = b
  agentNum : s.handler.agentNum = s.handler.sessions.keys.length
  counts : Counts RunPc.Connected s.pc s.handler.sessions.keys.length

namespace Accounts

variable {s : Agents ρ σ}

theorem init (store : σ) : Accounts (Agents.init store : Agents ρ σ) where
  flags := fun _ => ⟨rfl, rfl⟩
  registered := fun id a => by
    refine ⟨fun h => ?_, fun h => h.1.elim⟩
    rw [Agents.init, Handler.newGateHandler, AList.lookup_empty] at h
    cases h
  used := fun _ _ h => by cases h
  distinct := fun _ _ _ h => by cases h
  agentNum := rfl
  counts := Counts.zero_iff.mpr fun _ => id

/-- The calls of other modules. -/
theorem call (hs : Accounts s) {c : Handler ρ σ} (hc : SameIds s.handler c) :
    Accounts { s with handler := c } := by
  have hid : c.idOf = s.handler.idOf := funext hc.sessionId
  refine
    { flags := fun a => ?_, registered := fun id a => ?_, used := fun a id h => ?_,
      distinct := fun a b id ha hb => ?_, agentNum := ?_, counts := ?_ }
  · dsimp only
    rw [hid, hc.protocolOK]
    exact hs.flags a
  · dsimp only
    rw [hid, hc.sessions]
    exact hs.registered id a
  · exact hs.used a id (congrFun hid a ▸ h)
  · exact hs.distinct a b id (congrFun hid a ▸ ha) (congrFun hid b ▸ hb)
  · dsimp only
    rw [hc.agentNum, hc.sessions]
    exact hs.agentNum
  · dsimp only
    rw [hc.sessions]
    exact hs.counts

/-- An agent whose id is not registered by its own is not registered at all. -/
theorem lookup_eq_none (hs : Accounts s) {a : ρ} {id : String} (hid : s.handler.idOf a = some id)
    (ha : ¬ (s.pc a).Connected) : s.handler.sessions.lookup id = none := by
  by_contra hsome
  obtain ⟨b, hb⟩ := Option.ne_none_iff_exists'.mp hsome
  obtain ⟨hconnected, hidb⟩ := (hs.registered id b).mp hb
  obtain rfl := hs.distinct a b id hid hidb
  exact ha hconnected

variable [DecidableEq ρ]

/-- An agent moves on, and has the flags for it. -/
theorem flags_update (hs : Accounts s) {a : ρ} {pc : RunPc}
    (hflags : pc.Flags (s.handler.idOf a) (s.handler.agents a).protocolOK) (b : ρ) :
    (Function.update s.pc a pc b).Flags (s.handler.idOf b) (s.handler.agents b).protocolOK := by
  rw [Function.update_apply]
  split
  · next hb => exact hb ▸ hflags
  · exact hs.flags b

/-- An agent moves on, and stays connected or not connected. -/
theorem move (hs : Accounts s) {a : ρ} {pc : RunPc}
    (hflags : pc.Flags (s.handler.idOf a) (s.handler.agents a).protocolOK)
    (hpc : pc.Connected ↔ (s.pc a).Connected) : Accounts (s.setPc a pc) := by
  have hconnected : ∀ b, ((s.setPc a pc).pc b).Connected ↔ (s.pc b).Connected := by
    intro b
    change (Function.update s.pc a pc b).Connected ↔ _
    rw [Function.update_apply]
    split
    · next hb => rw [hb, hpc]
    · rfl
  exact
    { hs with
      flags := hs.flags_update hflags
      registered := fun id b => (hs.registered id b).trans (and_congr_left' (hconnected b).symm)
      counts := hs.counts.stay hpc }

theorem idOf_setAgent (s : Agents ρ σ) (a b : ρ) (agent : Agent) :
    (s.setAgent a agent).handler.idOf b
      = if b = a then agent.session.map SessionImp.sessionId else s.handler.idOf b := by
  unfold Handler.idOf Agents.setAgent
  dsimp only
  rw [Function.update_apply]
  split <;> rfl

/-- An agent that is not connected gets ready for it. -/
theorem prepare (hs : Accounts s) {a : ρ} {agent : Agent} {used : List String}
    (hout : ¬ (s.pc a).Connected)
    (hid : ∀ id, agent.session.map SessionImp.sessionId = some id →
      s.handler.idOf a = some id ∨ (id ∉ s.used ∧ id ∈ used))
    (hused : ∀ id ∈ s.used, id ∈ used) {pc : RunPc} (hout' : ¬ pc.Connected)
    (hflags : pc.Flags (agent.session.map SessionImp.sessionId) agent.protocolOK) :
    Accounts { (s.setAgent a agent).setPc a pc with used := used } := by
  -- the id of the agent is its own
  have hown : ∀ b id, agent.session.map SessionImp.sessionId = some id →
      s.handler.idOf b = some id → b = a := by
    intro b id hagent hidb
    rcases hid id hagent with hida | ⟨hfresh, -⟩
    · exact hs.distinct b a id hidb hida
    · exact absurd (hs.used b id hidb) hfresh
  refine
    { flags := fun b => ?_, registered := fun id b => ?_, used := fun b id h => ?_,
      distinct := fun b b' id hb hb' => ?_, agentNum := hs.agentNum
      counts := hs.counts.stay (iff_of_false hout' hout) }
  · change (Function.update s.pc a pc b).Flags ((s.setAgent a agent).handler.idOf b)
      (Function.update s.handler.agents a agent b).protocolOK
    rw [idOf_setAgent]
    by_cases hb : b = a
    · rw [if_pos hb, hb, Function.update_self, Function.update_self]
      exact hflags
    · rw [if_neg hb, Function.update_of_ne hb, Function.update_of_ne hb]
      exact hs.flags b
  · change _ ↔ (Function.update s.pc a pc b).Connected ∧ (s.setAgent a agent).handler.idOf b = some id
    refine (hs.registered id b).trans ?_
    by_cases hb : b = a
    · rw [hb, Function.update_self]
      exact iff_of_false (fun h => hout h.1) fun h => hout' h.1
    · rw [Function.update_of_ne hb, idOf_setAgent, if_neg hb]
  · change (s.setAgent a agent).handler.idOf b = some id at h
    rw [idOf_setAgent] at h
    split at h
    · rcases hid id h with hida | ⟨-, hmem⟩
      · exact hused id (hs.used a id hida)
      · exact hmem
    · exact hused id (hs.used b id h)
  · change (s.setAgent a agent).handler.idOf b = some id at hb
    change (s.setAgent a agent).handler.idOf b' = some id at hb'
    rw [idOf_setAgent] at hb hb'
    split at hb <;> split at hb'
    · next hba hba' => exact hba.trans hba'.symm
    · next hba _ => exact hba.trans (hown b' id hb hb').symm
    · next _ hba' => exact (hown b id hb' hb).trans hba'.symm
    · exact hs.distinct b b' id hb hb'

/-- `Connect`. -/
theorem connect (hs : Accounts s) {a : ρ} (hpc : s.pc a = .connecting) :
    Accounts { s.setPc a .listening with handler := s.handler.connect a } := by
  have hout : ¬ (s.pc a).Connected := by
    rw [hpc]
    exact id
  obtain ⟨hsome, hok⟩ : (s.handler.idOf a).isSome = true ∧ (s.handler.agents a).protocolOK = true := by
    have hflags := hs.flags a
    rwa [hpc] at hflags
  obtain ⟨t, ht, hid⟩ := s.handler.exists_session hsome
  have hnone : s.handler.sessions.lookup t.sessionId = none := hs.lookup_eq_none hid hout
  have hconnect : s.handler.connect a = { s.handler with
      sessions := s.handler.sessions.insert t.sessionId a
      agentNum := s.handler.agentNum + 1 } := by
    unfold Handler.connect
    rw [ht, hok]
    rfl
  have hlength := GoMap.length_keys_insert a hnone
  rw [hconnect]
  refine
    { flags := hs.flags_update ⟨hsome, hok⟩, registered := fun id b => ?_, used := hs.used
      distinct := hs.distinct, agentNum := ?_, counts := ?_ }
  · change (s.handler.sessions.insert t.sessionId a).lookup id = some b ↔
      (Function.update s.pc a .listening b).Connected ∧ s.handler.idOf b = some id
    rw [GoMap.lookup_insert]
    by_cases hb : b = a
    · rw [hb, Function.update_self, hid]
      split
      · next hkey => exact iff_of_true rfl ⟨trivial, congrArg some hkey.symm⟩
      · next hkey =>
        refine iff_of_false (fun h => hout ((hs.registered id a).mp h).1) fun h => hkey ?_
        exact (Option.some.inj h.2).symm
    · rw [Function.update_of_ne hb]
      split
      · next hkey =>
        refine iff_of_false (fun h => hb (Option.some.inj h).symm) fun h => hb ?_
        exact hs.distinct b a id h.2 (hkey ▸ hid)
      · exact hs.registered id b
  · dsimp only
    rw [hlength, hs.agentNum]
    push_cast
    rfl
  · dsimp only
    rw [hlength]
    exact hs.counts.enter hout trivial

/-- `DisConnect` of an agent that was connected. -/
theorem disConnect (hs : Accounts s) {a : ρ} (hpc : s.pc a = .left) :
    Accounts { s.setPc a .closed with handler := s.handler.disConnect a } := by
  have hin : (s.pc a).Connected := by
    rw [hpc]
    trivial
  obtain ⟨hsome, hok⟩ : (s.handler.idOf a).isSome = true ∧ (s.handler.agents a).protocolOK = true := by
    have hflags := hs.flags a
    rwa [hpc] at hflags
  obtain ⟨t, ht, hid⟩ := s.handler.exists_session hsome
  have hlookup : s.handler.sessions.lookup t.sessionId = some a := (hs.registered _ a).mpr ⟨hin, hid⟩
  have hdisConnect : s.handler.disConnect a = { s.handler with
      sessions := s.handler.sessions.erase t.sessionId
      agentNum := s.handler.agentNum - 1 } := by
    unfold Handler.disConnect
    rw [ht, hok]
    rfl
  have hlength := GoMap.length_keys_erase hlookup
  rw [hdisConnect]
  refine
    { flags := hs.flags_update trivial, registered := fun id b => ?_, used := hs.used
      distinct := hs.distinct, agentNum := ?_, counts := ?_ }
  · change (s.handler.sessions.erase t.sessionId).lookup id = some b ↔
      (Function.update s.pc a .closed b).Connected ∧ s.handler.idOf b = some id
    rw [GoMap.lookup_erase]
    by_cases hb : b = a
    · rw [hb, Function.update_self]
      refine iff_of_false (fun h => ?_) fun h => h.1
      split at h
      · cases h
      · next hkey =>
        refine hkey ?_
        exact Option.some.inj (((hs.registered id a).mp h).2.symm.trans hid)
    · rw [Function.update_of_ne hb]
      split
      · next hkey =>
        refine iff_of_false (fun h => by cases h) fun h => hb ?_
        exact hs.distinct b a id h.2 (hkey ▸ hid)
      · exact hs.registered id b
  · dsimp only
    rw [hs.agentNum, hlength]
    push_cast
    omega
  · have hcounts := hs.counts.leave hin (b := .closed) id
    rwa [hlength, Nat.add_sub_cancel] at hcounts

/-- `DisConnect` of an agent that was not. -/
theorem disConnect_failed (hs : Accounts s) {a : ρ} (hpc : s.pc a = .failed) :
    Accounts { s.setPc a .closed with handler := s.handler.disConnect a } := by
  have hout : ¬ (s.pc a).Connected := by
    rw [hpc]
    exact id
  have hok : (s.handler.agents a).protocolOK = false := by
    have hflags := hs.flags a
    rwa [hpc] at hflags
  have hmove : Accounts (s.setPc a .closed) := hs.move trivial (iff_of_false id hout)
  cases ht : (s.handler.agents a).session with
  | none =>
    have hdisConnect : s.handler.disConnect a = s.handler := by
      unfold Handler.disConnect
      rw [ht]
    rw [hdisConnect]
    exact hmove
  | some t =>
    -- the id is not in the map
    have hid : s.handler.idOf a = some t.sessionId := Handler.idOf_of_session ht
    have hnone : s.handler.sessions.lookup t.sessionId = none := hs.lookup_eq_none hid hout
    have hdisConnect : s.handler.disConnect a
        = { s.handler with sessions := s.handler.sessions.erase t.sessionId } := by
      unfold Handler.disConnect
      rw [ht, hok]
      rfl
    have hkeys : (s.handler.sessions.erase t.sessionId).keys = s.handler.sessions.keys := by
      have hnot : t.sessionId ∉ s.handler.sessions.keys :=
        AList.mem_keys.not.mp (AList.lookup_eq_none.mp hnone)
      rw [AList.keys_erase, List.erase_of_not_mem hnot]
    rw [hdisConnect]
    refine { hmove with registered := fun id b => ?_, agentNum := ?_, counts := ?_ }
    · refine Iff.trans ?_ (hmove.registered id b)
      change (s.handler.sessions.erase t.sessionId).lookup id = _ ↔ s.handler.sessions.lookup id = _
      rw [GoMap.lookup_erase]
      split
      · next hkey => rw [hkey, hnone]
      · rfl
    · dsimp only
      rw [hkeys]
      exact hs.agentNum
    · dsimp only
      rw [hkeys]
      exact hmove.counts

/-- A step of an agent. -/
theorem runStep (hs : Accounts s) {a : ρ} {s' : Agents ρ σ} (h : Agents.RunStep s a (s.pc a) s') :
    Accounts s' := by
  generalize hpc : s.pc a = pc at h
  have hflags := hs.flags a
  rw [hpc] at hflags
  have hout : ¬ pc.Connected → ¬ (s.pc a).Connected := fun h => hpc ▸ h
  cases h with
  | login hfrom hto =>
    have hnothing : s.handler.idOf a = none ∧ (s.handler.agents a).protocolOK = false := by
      rcases hfrom with rfl | rfl | ⟨pack, rfl⟩
      · exact hflags
      · exact hflags
      · exact hflags
    have hfrom' : ¬ pc.Connected := by
      rcases hfrom with rfl | rfl | ⟨pack, rfl⟩
      · exact id
      · exact id
      · exact id
    rcases hto with rfl | ⟨pack, rfl⟩ | rfl
    · exact hs.move hnothing (iff_of_false id (hout hfrom'))
    · exact hs.move hnothing (iff_of_false id (hout hfrom'))
    · exact hs.move hnothing (iff_of_false id (hout hfrom'))
  | newSession hfresh =>
    refine hs.prepare (hout id) (fun id hid => .inr ?_) (fun id => List.mem_cons_of_mem _) id
      ⟨rfl, hflags.2⟩
    obtain rfl := Option.some.inj hid
    exact ⟨hfresh, List.mem_cons_self⟩
  | createTrace traceId spanId =>
    have hid : ((s.handler.agents a).session.map fun session =>
        { session with traceId := traceId, spanId := spanId }).map SessionImp.sessionId
        = s.handler.idOf a := by
      rw [Option.map_map]
      rfl
    refine hs.prepare (hout id) (fun id h => .inl (hid ▸ h)) (fun _ => id) id ?_
    exact ⟨hid ▸ hflags.1, hflags.2⟩
  | written =>
    refine hs.prepare (hout id) ?_ (fun _ => id) ?_ ?_
    · exact fun id h => .inl h
    · exact id
    · exact ⟨hflags.1, rfl⟩
  | connect => exact hs.connect hpc
  | lost => exact hs.move hflags (by simp [hpc, RunPc.Connected])
  | fail hfrom =>
    have hnot : ¬ pc.Connected ∧ (s.handler.agents a).protocolOK = false := by
      rcases hfrom with rfl | ⟨pack, rfl⟩ | rfl | rfl | rfl
      · exact ⟨id, hflags.2⟩
      · exact ⟨id, hflags.2⟩
      · exact ⟨id, hflags.2⟩
      · exact ⟨id, hflags.2⟩
      · exact ⟨id, hflags.2⟩
    exact hs.move hnot.2 (iff_of_false id (hout hnot.1))
  | onClose hfrom =>
    rcases hfrom with rfl | rfl
    · exact hs.disConnect_failed hpc
    · exact hs.disConnect hpc

theorem step (hs : Accounts s) {g : Gate σ} {act : GateAct ρ} {s' : Agents ρ σ}
    (h : Agents.step g s act = some s') : Accounts s' := by
  cases act with
  | agent a act => exact hs.runStep (Agents.runStep_eq_some h)
  | call op =>
    obtain ⟨hsame, hpc, hused⟩ := call_sameIds h
    obtain ⟨c, pc, used⟩ := s'
    obtain rfl : pc = s.pc := hpc
    obtain rfl : used = s.used := hused
    exact hs.call hsame

end Accounts

/-- **Connection accounting.** Over all interleavings of the lives of the agents, and of calls of other modules,
`agentNum` is the number of the agents that have executed `Connect` and not `DisConnect`, and that of the
sessions, and so it is not negative. -/
theorem agentNum_eq_connected [DecidableEq ρ] (g : Gate σ) (store : σ) {s : Agents ρ σ}
    (h : Reachable (Agents.step g) (Agents.init store) s) :
    ∃ n : ℕ, {a | (s.pc a).Connected}.encard = n ∧ s.handler.agentNum = n ∧
      s.handler.sessions.keys.length = n ∧ 0 ≤ s.handler.agentNum := by
  have hs : Accounts s := reachable_invariant (.init store) (fun _ _ _ hs h => hs.step h) h
  refine ⟨_, hs.counts, hs.agentNum, rfl, ?_⟩
  rw [hs.agentNum]
  exact Int.natCast_nonneg _

/-! Two clients log in, and the second one is gone before its login is acknowledged. -/

def loginPack : Mqtt.Pack := { msgType := Mqtt.CONNECT, variable_ := .connect {} }

/-- The life of an agent up to its acknowledgement. -/
def login (a : Bool) (sessionid : String) : List (GateAct Bool) :=
  [.agent a .accept, .agent a (.read (some loginPack)), .agent a .check,
    .agent a (.newSession sessionid "tcp" "127.0.0.1:3563" "gate@1"), .agent a (.createTrace "1" "2")]

def twoLogins : List (GateAct Bool) :=
  login true "a" ++ [.agent true (.writePack true)] ++ login false "b" ++ [.agent true .connect] ++
    [.agent false (.writePack false), .agent false .onClose]

def silentGate : Gate Unit := ⟨none, fun _ => .error "proto: cannot parse invalid wire-format data"⟩

theorem agentNum_eq_connected_twoLogins :
    ∃ s, run (Agents.step silentGate) (Agents.init ()) twoLogins = some s ∧ s.handler.agentNum = 1 ∧
      ∃ n : ℕ, {a | (s.pc a).Connected}.encard = n ∧ s.handler.agentNum = n ∧
        s.handler.sessions.keys.length = n ∧ 0 ≤ s.handler.agentNum :=
  ⟨_, rfl, rfl, agentNum_eq_connected silentGate () ⟨twoLogins, rfl⟩⟩

end Vmqant.BaseGate
