import Vmqant.Gate.Handler

/-!
# The gate handler is a session store

`abs` reads the store out of a handler: the connected sessions, each as the agent that is registered
under its id has it. Every call does to it what `Store.step` does, because an agent is registered
under the id of its own session, and so the agents under two ids are different.
-/

namespace Vmqant.BaseGate

open Lts

variable {ρ σ : Type}

/-! ## The abstraction -/

/-- The keys that are stored for a user, when they can be queried and decoded. -/
def Gate.record (g : Gate σ) (store : σ) (userid : String) : Option (String → Option String) :=
  (g.stored store userid).map SessionImp.load

/-- Whoever there is data for is in `users`, and to store a session adds at most its user. -/
def Gate.Lawful (g : Gate σ) (users : σ → Set String) : Prop :=
  ∀ h, g.storageHandler = some h →
    (∀ store userid data, h.query store userid = .ok (some data) → userid ∈ users store) ∧
    ∀ store s, users (h.storage store s).2 ⊆ insert s.userId (users store)

/-- The session id that is passed to a call. -/
def Op.sessionid : Op ρ → Option String
  | .connect _ => none
  | .disConnect _ => none
  | .bind sessionid _ => sessionid
  | .unBind sessionid => sessionid
  | .push sessionid _ => sessionid
  | .set sessionid _ _ => sessionid
  | .remove sessionid _ => sessionid

namespace Handler

/-- The session that is connected under an id. -/
def session (c : Handler ρ σ) (sessionid : String) : Option SessionImp :=
  (c.sessions.lookup sessionid).bind fun a => (c.agents a).session

def abs (c : Handler ρ σ) : Store := fun sessionid => (c.session sessionid).map SessionImp.view

/-- A call as an operation of the store. -/
def label (g : Gate σ) (c : Handler ρ σ) : Op ρ → StoreOp
  | .connect a =>
    match (c.agents a).session with
    | none => .skip
    | some s => .connect s.sessionId s.view
  | .disConnect a =>
    match (c.agents a).session with
    | none => .skip
    | some s => .disConnect s.sessionId
  | .bind sessionid userid => .bind sessionid userid (g.record c.store userid)
  | .unBind sessionid => .unBind sessionid
  | .push sessionid settings => .push sessionid settings.lookup
  | .set sessionid key value => .set sessionid key value
  | .remove sessionid key => .remove sessionid key

/-- The id of the session that a call is about. -/
def target (c : Handler ρ σ) : Op ρ → Option String
  | .connect a => (c.agents a).session.map SessionImp.sessionId
  | .disConnect a => (c.agents a).session.map SessionImp.sessionId
  | op => op.sessionid

/-! ## The invariant -/

/-- Agents are registered under the id of their own session, sessions can be written to, and nothing
is stored for the empty user id. -/
structure Wf (users : σ → Set String) (c : Handler ρ σ) : Prop where
  made : ∀ a s, (c.agents a).session = some s → s.Made
  registered : ∀ sessionid a, c.sessions.lookup sessionid = some a →
    ∃ s, (c.agents a).session = some s ∧ s.sessionId = sessionid
  guest : "" ∉ users c.store

variable {g : Gate σ} {users : σ → Set String} {c : Handler ρ σ}

theorem Wf.new {agents : ρ → Agent} {store : σ}
    (hagents : ∀ a s, (agents a).session = some s → s.Made) (hguest : "" ∉ users store) :
    Wf users (newGateHandler agents store) where
  made := hagents
  registered sessionid a h := by
    rw [newGateHandler, AList.lookup_empty] at h
    cases h
  guest := hguest

/-- The gate stores sessions of users only. -/
theorem save_guest (hlaw : g.Lawful users) {store : σ} (hguest : "" ∉ users store) (s : SessionImp) :
    "" ∉ users (g.save store s) := by
  unfold Gate.save
  split
  · exact hguest
  · next h hh =>
    split
    · next huser =>
      intro hmem
      rcases (hlaw h hh).2 store s hmem with heq | hmem
      · exact huser heq.symm
      · exact hguest hmem
    · exact hguest

theorem stored_guest (hlaw : g.Lawful users) {store : σ} (hguest : "" ∉ users store) :
    g.stored store "" = none := by
  unfold Gate.stored
  split
  · rfl
  · next h hh =>
    split
    · rfl
    · rfl
    · next data hdata => exact absurd ((hlaw h hh).1 store "" data hdata) hguest

/-! ## Calls -/

/-- What a call on the session `sessionid` does, given what it does to that session. -/
structure Served (users : σ → Set String) (c : Handler ρ σ) (sessionid : String) (f : View → View)
    (reply : Reply) (c' : Handler ρ σ) : Prop where
  wf : Wf users c'
  abs_eq : c'.abs = c.abs.modify sessionid f
  sessions_eq : c'.sessions = c.sessions
  frame : ∀ a s, (c.agents a).session = some s → s.sessionId ≠ sessionid →
    (c'.agents a).session = some s
  unknown : c.sessions.lookup sessionid = none → reply.err ≠ "" ∧ c' = c

/-- What every call does: to the store, to the other sessions, and when its session is unknown. -/
structure CallSpec (users : σ → Set String) (g : Gate σ) (c : Handler ρ σ) (op : Op ρ)
    (reply : Option Reply) (c' : Handler ρ σ) : Prop where
  wf : Wf users c'
  abs_eq : c'.abs = c.abs.step (label g c op)
  lookup_eq : ∀ id, c.target op ≠ some id → c'.sessions.lookup id = c.sessions.lookup id
  frame : ∀ a s, (c.agents a).session = some s → c.target op ≠ some s.sessionId →
    (c'.agents a).session = some s
  unknown : ∀ id, op.sessionid = some id → c.sessions.lookup id = none →
    (∃ r, reply = some r ∧ r.err ≠ "") ∧ c' = c

theorem Served.callSpec {op : Op ρ} {sessionid : String} {f : View → View} {reply : Reply}
    {c' : Handler ρ σ} (h : Served users c sessionid f reply c') (hop : op.sessionid = some sessionid)
    (htarget : c.target op = some sessionid)
    (hlabel : c.abs.step (label g c op) = c.abs.modify sessionid f) :
    CallSpec users g c op (some reply) c' where
  wf := h.wf
  abs_eq := h.abs_eq.trans hlabel.symm
  lookup_eq id _ := by rw [h.sessions_eq]
  frame a s hs hne := h.frame a s hs fun heq => hne (htarget.trans (congrArg some heq.symm))
  unknown id hid hnone := by
    rw [hop, Option.some.injEq] at hid
    subst hid
    exact ⟨⟨reply, rfl, (h.unknown hnone).1⟩, (h.unknown hnone).2⟩

/-- What `Connect` and `DisConnect` have in common: the registration under one id changes. -/
theorem register_spec (hc : Wf users c) {sessionid : String} {x : Option ρ}
    {m : AList fun _ : String => ρ}
    (hm : ∀ id, m.lookup id = if id = sessionid then x else c.sessions.lookup id)
    (hx : ∀ a, x = some a → ∃ s, (c.agents a).session = some s ∧ s.sessionId = sessionid)
    (num : ℤ) :
    Wf users { c with sessions := m, agentNum := num } ∧
      abs { c with sessions := m, agentNum := num } = Function.update c.abs sessionid
        ((x.bind fun a => (c.agents a).session).map SessionImp.view) := by
  refine ⟨⟨hc.made, fun id b hb => ?_, hc.guest⟩, funext fun id => ?_⟩
  · have hb' : (if id = sessionid then x else c.sessions.lookup id) = some b := (hm id).symm.trans hb
    split at hb'
    · next heq =>
      rw [heq]
      exact hx b hb'
    · exact hc.registered id b hb'
  · unfold abs session
    dsimp only
    rw [hm, Function.update_apply]
    split <;> rfl

theorem connect_spec (hc : Wf users c) (a : ρ) :
    Wf users (c.connect a) ∧ (c.connect a).abs = c.abs.step (label g c (.connect a)) ∧
      (c.connect a).agents = c.agents ∧ ∀ id, c.target (.connect a) ≠ some id →
        (c.connect a).sessions.lookup id = c.sessions.lookup id := by
  simp only [connect, label, target]
  cases hs : (c.agents a).session with
  | none => exact ⟨hc, rfl, rfl, fun _ _ => rfl⟩
  | some s =>
    have hm := fun id => GoMap.lookup_insert c.sessions s.sessionId id a
    obtain ⟨hwf, habs⟩ := register_spec hc hm
      (fun b hb => ⟨s, Option.some.inj hb ▸ hs, rfl⟩)
      (if (c.agents a).protocolOK then c.agentNum + 1 else c.agentNum)
    refine ⟨hwf, ?_, rfl, fun id hid => ?_⟩
    · rw [habs, Option.bind_some, hs]
      rfl
    · rw [hm, if_neg]
      rintro rfl
      exact hid rfl

theorem disConnect_spec (hc : Wf users c) (a : ρ) :
    Wf users (c.disConnect a) ∧ (c.disConnect a).abs = c.abs.step (label g c (.disConnect a)) ∧
      (c.disConnect a).agents = c.agents ∧ ∀ id, c.target (.disConnect a) ≠ some id →
        (c.disConnect a).sessions.lookup id = c.sessions.lookup id := by
  simp only [disConnect, label, target]
  cases hs : (c.agents a).session with
  | none => exact ⟨hc, rfl, rfl, fun _ _ => rfl⟩
  | some s =>
    have hm := fun id => GoMap.lookup_erase c.sessions s.sessionId id
    obtain ⟨hwf, habs⟩ := register_spec hc hm (by intro b hb; cases hb)
      (if (c.agents a).protocolOK then c.agentNum - 1 else c.agentNum)
    refine ⟨hwf, habs, rfl, fun id hid => ?_⟩
    rw [hm, if_neg]
    rintro rfl
    exact hid rfl

variable [DecidableEq ρ]

theorem abs_update (hc : Wf users c) {sessionid : String} {a : ρ} {s s' : SessionImp} {v : View}
    {store : σ} (ha : c.sessions.lookup sessionid = some a) (hs : (c.agents a).session = some s)
    (hs' : s.Becomes s' v) :
    abs { c with
          agents := Function.update c.agents a { c.agents a with session := some s' }
          store } = Function.update c.abs sessionid (some v) := by
  funext other
  unfold abs session
  dsimp only
  rw [Function.update_apply]
  split
  · next heq =>
    rw [heq, ha, Option.bind_some, Function.update_self, Option.map_some, hs'.view_eq]
  · next hne =>
    -- the agent under another id is another agent
    cases hb : c.sessions.lookup other with
    | none => rfl
    | some b =>
      have hba : b ≠ a := by
        rintro rfl
        obtain ⟨t, ht, hid⟩ := hc.registered _ _ ha
        obtain ⟨t', ht', hid'⟩ := hc.registered _ _ hb
        rw [ht, Option.some.injEq] at ht'
        rw [← ht', hid] at hid'
        exact hne hid'.symm
      rw [Option.bind_some, Option.bind_some, Function.update_of_ne hba]

theorem onSession_spec (hc : Wf users c) {sessionid : String} {f : View → View}
    {body : SessionImp → Option SessionImp} {save : σ → SessionImp → σ}
    (hbody : ∀ s : SessionImp, s.Made → ∃ s', body s = some s' ∧ s.Becomes s' (f s.view))
    (hsave : ∀ s, "" ∉ users (save c.store s)) :
    ∃ reply c', c.onSession sessionid body save = some (reply, c') ∧
      Served users c sessionid f reply c' := by
  cases ha : c.sessions.lookup sessionid with
  | none =>
    unfold onSession
    rw [ha]
    have habs : c.abs sessionid = none := by rw [abs, session, ha]; rfl
    refine ⟨_, _, rfl, hc, ?_, rfl, fun a s hs _ => hs, fun _ => ⟨by decide, rfl⟩⟩
    rw [Store.modify, habs, Option.map_none, ← habs, Function.update_eq_self]
  | some a =>
    obtain ⟨s, hs, hid⟩ := hc.registered _ _ ha
    obtain ⟨s', hbody, hs'⟩ := hbody s (hc.made a s hs)
    refine ⟨_, _, onSession_eq ha hs hbody save, ⟨?_, ?_, hsave s'⟩, ?_, rfl, ?_, fun h => ?_⟩
    -- the agent of the session has the new one, the others have theirs
    · intro b t ht
      dsimp only at ht
      rw [Function.update_apply] at ht
      split at ht
      · obtain rfl := Option.some.inj ht
        exact hs'.made
      · exact hc.made b t ht
    · intro id b hb
      obtain ⟨t, ht, htid⟩ := hc.registered id b hb
      dsimp only
      rw [Function.update_apply]
      split
      · next hba =>
        rw [hba, hs, Option.some.injEq] at ht
        refine ⟨s', rfl, ?_⟩
        rw [hs'.sessionId_eq, ht, htid]
      · exact ⟨t, ht, htid⟩
    · have habs : c.abs sessionid = some s.view := by rw [abs, session, ha, Option.bind_some, hs]; rfl
      rw [abs_update hc ha hs hs', Store.modify, habs, Option.map_some]
    · intro b t ht hne
      dsimp only
      rw [Function.update_of_ne]
      · exact ht
      · rintro rfl
        rw [hs, Option.some.injEq] at ht
        rw [← ht] at hne
        exact hne hid
    · rw [ha] at h
      cases h

theorem bind_spec (hlaw : g.Lawful users) (hc : Wf users c) (sessionid userid : String) :
    ∃ reply c', bind g c sessionid userid = some (reply, c') ∧
      Served users c sessionid (·.bind userid (g.record c.store userid)) reply c' := by
  refine onSession_spec hc (fun s hs => ?_) fun s => save_guest hlaw hc.guest s
  dsimp only
  have huser := SessionImp.setUserID_spec hs userid
  by_cases hempty : userid = ""
  · -- nothing is stored for it
    rw [if_neg (fun h => h hempty)]
    refine ⟨_, rfl, huser.made, rfl, View.ext rfl (funext fun key => ?_)⟩
    rw [Gate.record, hempty, stored_guest hlaw hc.guest]
    exact Option.or_none.symm
  · have hne : (s.setUserID userid).userId ≠ "" := hempty
    rw [if_pos hne, Gate.record]
    -- the session that was stored, if it can be queried and decoded
    cases g.stored c.store userid with
    | none => exact ⟨_, rfl, huser.made, rfl, View.ext rfl (funext fun key => Option.or_none.symm)⟩
    | some imp =>
      obtain ⟨hmade, hid, hview⟩ := SessionImp.importSettings_spec huser.made imp.cloneSettings
      refine ⟨_, rfl, hmade, hid, ?_⟩
      rw [hview]
      refine View.ext rfl (funext fun key => ?_)
      show (s.load key).or (imp.cloneSettings.lookup key) = (s.load key).or (imp.load key)
      rw [SessionImp.lookup_cloneSettings]

theorem unBind_spec (hc : Wf users c) (sessionid : String) :
    ∃ reply c', c.unBind sessionid = some (reply, c') ∧
      Served users c sessionid View.unBind reply c' :=
  onSession_spec hc (fun _ hs => ⟨_, rfl, SessionImp.setUserID_spec hs ""⟩) fun _ => hc.guest

theorem push_spec (hlaw : g.Lawful users) (hc : Wf users c) (sessionid : String)
    (settings : Settings) :
    ∃ reply c', push g c sessionid settings = some (reply, c') ∧
      Served users c sessionid (·.push settings.lookup) reply c' :=
  onSession_spec hc (fun _ hs => SessionImp.setAll_spec hs settings) fun s =>
    save_guest hlaw hc.guest s

theorem set_spec (hlaw : g.Lawful users) (hc : Wf users c) (sessionid key value : String) :
    ∃ reply c', set g c sessionid key value = some (reply, c') ∧
      Served users c sessionid (·.set key value) reply c' :=
  onSession_spec hc (fun _ hs => SessionImp.setLocalKV_spec hs key value) fun s =>
    save_guest hlaw hc.guest s

theorem remove_spec (hlaw : g.Lawful users) (hc : Wf users c) (sessionid key : String) :
    ∃ reply c', remove g c sessionid key = some (reply, c') ∧
      Served users c sessionid (·.remove key) reply c' :=
  onSession_spec hc (fun _ hs => ⟨_, rfl, SessionImp.removeLocalKV_spec hs key⟩) fun s =>
    save_guest hlaw hc.guest s

theorem call_spec (hlaw : g.Lawful users) (hc : Wf users c) (op : Op ρ) :
    ∃ reply c', c.call g op = some (reply, c') ∧ CallSpec users g c op reply c' := by
  cases op with
  | connect a =>
    obtain ⟨hwf, habs, hagents, hlookup⟩ := connect_spec hc a
    refine ⟨_, _, rfl, hwf, habs, hlookup, fun b s hs _ => ?_, fun id hid => nomatch hid⟩
    rw [hagents, hs]
  | disConnect a =>
    obtain ⟨hwf, habs, hagents, hlookup⟩ := disConnect_spec hc a
    refine ⟨_, _, rfl, hwf, habs, hlookup, fun b s hs _ => ?_, fun id hid => nomatch hid⟩
    rw [hagents, hs]
  | bind sessionid userid =>
    obtain ⟨reply, c', hcall, h⟩ := bind_spec hlaw hc sessionid userid
    exact ⟨_, c', by rw [call, hcall]; rfl, h.callSpec rfl rfl rfl⟩
  | unBind sessionid =>
    obtain ⟨reply, c', hcall, h⟩ := unBind_spec hc sessionid
    exact ⟨_, c', by rw [call, hcall]; rfl, h.callSpec rfl rfl rfl⟩
  | push sessionid settings =>
    obtain ⟨reply, c', hcall, h⟩ := push_spec hlaw hc sessionid settings
    exact ⟨_, c', by rw [call, hcall]; rfl, h.callSpec rfl rfl rfl⟩
  | set sessionid key value =>
    obtain ⟨reply, c', hcall, h⟩ := set_spec hlaw hc sessionid key value
    exact ⟨_, c', by rw [call, hcall]; rfl, h.callSpec rfl rfl rfl⟩
  | remove sessionid key =>
    obtain ⟨reply, c', hcall, h⟩ := remove_spec hlaw hc sessionid key
    exact ⟨_, c', by rw [call, hcall]; rfl, h.callSpec rfl rfl rfl⟩

/-- One call is one operation of the store. -/
theorem step_spec (hlaw : g.Lawful users) (c : Handler ρ σ) (op : Op ρ) (hc : Wf users c) :
    ∃ c', c.step g op = some c' ∧ Wf users c' ∧ c'.abs = c.abs.step (label g c op) := by
  obtain ⟨reply, c', hcall, h⟩ := call_spec hlaw hc op
  exact ⟨c', by rw [step, hcall]; rfl, h.wf, h.abs_eq⟩

end Handler

/-! ## Runs -/

open Handler

/-- After every run of calls the handler holds the sessions that the store of the same operations
holds. In each state reached so, a call leaves every session but the one it is about as it is; a call
with an unknown session id gives an error and changes nothing. The empty user id stands for a guest:
nothing is stored for it at first, and the handler stores nothing for it, so that `Bind` has no record
to miss when it does not ask for one. -/
theorem handler_refines [DecidableEq ρ] (g : Gate σ) {users : σ → Set String}
    (hlaw : g.Lawful users) (agents : ρ → Agent)
    (hagents : ∀ a s, (agents a).session = some s → s.Made) (store : σ) (hguest : "" ∉ users store)
    (ops : List (Op ρ)) :
    ∃ c, run (Handler.step g) (newGateHandler agents store) ops = some c ∧
      c.abs = Store.empty.run
        (labels (Handler.step g) (label g) (newGateHandler agents store) ops) ∧
      ∀ op, ∃ reply c', c.call g op = some (reply, c') ∧
        (∀ id, c.target op ≠ some id → c'.session id = c.session id) ∧
        (∀ a s, (c.agents a).session = some s → c.target op ≠ some s.sessionId →
          (c'.agents a).session = some s) ∧
        ∀ id, op.sessionid = some id → c.session id = none →
          (∃ r, reply = some r ∧ r.err ≠ "") ∧ c' = c := by
  obtain ⟨c, hrun, hc, habs⟩ := run_refines (step_spec hlaw) (Wf.new hagents hguest) ops
  refine ⟨c, hrun, habs, fun op => ?_⟩
  obtain ⟨reply, c', hcall, h⟩ := call_spec hlaw hc op
  refine ⟨reply, c', hcall, fun id hid => ?_, h.frame, fun id hid hnone => h.unknown id hid ?_⟩
  · unfold Handler.session
    rw [h.lookup_eq id hid]
    cases ha : c.sessions.lookup id with
    | none => rfl
    | some a =>
      obtain ⟨s, hs, rfl⟩ := hc.registered id a ha
      rw [Option.bind_some, Option.bind_some, hs, h.frame a s hs hid]
  · -- a registered agent has a session
    cases ha : c.sessions.lookup id with
    | none => rfl
    | some a =>
      obtain ⟨s, hs, -⟩ := hc.registered id a ha
      rw [Handler.session, ha, Option.bind_some, hs] at hnone
      cases hnone

/-! A gate with a storage handler that cannot write: the bytes stored for the user `u` are the message
whose settings map `k` to `v`. One of two agents sets `k`, binds to `u` and keeps its own value; the
other binds to `u` and gets the stored one. -/

def sampleGate : Gate (String → Option (List UInt8)) where
  storageHandler := some
    { query := fun store userid => .ok (store userid)
      storage := fun store _ => (some "read only", store) }
  unmarshal := fun data =>
    if data = [66, 6, 10, 1, 107, 18, 1, 118] then
      .ok { settings := some (AList.insert "k" "v" ∅) }
    else .error "proto: cannot parse invalid wire-format data"

def sampleAgents (a : Bool) : Agent where
  session := some (.newSessionByMap { sessionid := some (if a then "a" else "b") })
  protocolOK := true

def sampleStore : String → Option (List UInt8) :=
  fun userid => if userid = "u" then some [66, 6, 10, 1, 107, 18, 1, 118] else none

theorem handler_refines_sample : ∃ c, run (Handler.step sampleGate)
      (newGateHandler sampleAgents sampleStore)
      [.connect true, .connect false, .set "a" "k" "1", .bind "a" "u", .bind "b" "u", .unBind "a",
        .set "c" "k" "2"] = some c ∧
    (c.abs "a").map (fun v => (v.userId, v.settings "k")) = some ("", some "1") ∧
    (c.abs "b").map (fun v => (v.userId, v.settings "k")) = some ("u", some "v") := by
  have hlaw : sampleGate.Lawful fun store => {userid | (store userid).isSome} := by
    rintro h hh
    obtain rfl := Option.some.inj hh
    refine ⟨fun store userid data hdata => ?_, fun store s => Set.subset_insert _ _⟩
    have hsome : store userid = some data := Except.ok.inj hdata
    rw [Set.mem_ofPred_eq, hsome]
    rfl
  have hagents : ∀ a s, (sampleAgents a).session = some s → s.Made := by
    rintro a s hs
    obtain rfl := Option.some.inj hs
    exact SessionImp.made_newSessionByMap _
  obtain ⟨c, hrun, habs, -⟩ := handler_refines sampleGate hlaw sampleAgents hagents sampleStore
    (by decide) [.connect true, .connect false, .set "a" "k" "1", .bind "a" "u", .bind "b" "u",
      .unBind "a", .set "c" "k" "2"]
  refine ⟨c, hrun, ?_, ?_⟩
  · rw [habs]
    rfl
  · rw [habs]
    rfl

end Vmqant.BaseGate
