import Vmqant.Gate.MqttAgent

/-!
# One answer per request

A request is a PUBLISH whose topic has three parts, the third being a message id. Each exit of
`OnRecover` and `recoverworker` writes one answer with the topic of the request, except one: when the
session cannot be serialized, which depends on the bytes of the topic, nothing is written.
-/

namespace Vmqant.BaseGate

open Mqtt (GoString Pack)

variable {α υ ι : Type}

/-! ## What the app does -/

/-- The app gives a packet unless it gives an error, and for an error it gives a packet. -/
structure App.Lawful (app : App ι) : Prop where
  packet : ∀ trace result error, (app.protocolMarshal trace result error).2 = [] →
    (app.protocolMarshal trace result error).1.isSome
  fallback : ∀ trace error, (app.protocolMarshal trace .nil error).1.isSome

/-- The default app: JSON can express every error, and says why it cannot express a result. -/
theorem App.lawful_of_json {app : App ι} (hhook : app.hook = none)
    (hnil : ∀ trace error, ∃ b, app.jsonMarshal trace .nil error = .ok b)
    (herror : ∀ trace result error, app.jsonMarshal trace result error ≠ .error []) : app.Lawful where
  packet trace result error h := by
    unfold protocolMarshal at h ⊢
    rw [hhook] at h ⊢
    dsimp only at h ⊢
    cases hjson : app.jsonMarshal trace result error with
    | ok b => rfl
    | error err =>
      rw [hjson] at h
      obtain rfl : err = [] := h
      exact absurd hjson (herror trace result error)
  fallback trace error := by
    obtain ⟨b, hb⟩ := hnil trace error
    unfold protocolMarshal
    rw [hhook]
    dsimp only
    rw [hb]
    rfl

/-! ## What is written -/

/-- One message is written, with the topic. -/
def Answers (topic : GoString) (s s' : AgentState) : Prop :=
  ∃ data, s'.written = s.written ++ [(topic, data)]

/-- Nothing is written. -/
def Silent (s s' : AgentState) : Prop := s'.written = s.written

theorem Answers.not_silent {topic : GoString} {s s' : AgentState} (h : Answers topic s s') :
    ¬ Silent s s' := by
  intro hsilent
  obtain ⟨data, hdata⟩ := h
  have hlen : s'.written.length = s.written.length + 1 := by
    rw [hdata, List.length_append, List.length_singleton]
  rw [hsilent] at hlen
  omega

theorem Answers.of_silent {topic : GoString} {s s₁ s' : AgentState} (h : Silent s s₁)
    (h' : Answers topic s₁ s') : Answers topic s s' := by
  obtain ⟨data, hdata⟩ := h'
  exact ⟨data, by rw [hdata, h]⟩

theorem Answers.and_silent {topic : GoString} {s s₁ s' : AgentState} (h : Answers topic s s₁)
    (h' : Silent s₁ s') : Answers topic s s' := by
  obtain ⟨data, hdata⟩ := h
  exact ⟨data, by rw [h', hdata]⟩

namespace MqttAgent

variable {age : MqttAgent α υ ι} {topic msgid : GoString}

theorem writeMsg_answers (body : List UInt8) :
    (writeMsg topic body).Ends (.ok ()) (Answers topic) := fun _ => ⟨rfl, body, rfl⟩

theorem toResult_answers (happ : age.app.Lawful) (result : Result ι) (error : GoString) :
    (age.toResult topic result error).Ends (.ok ()) (Answers topic) := by
  unfold toResult
  split
  · exact writeMsg_answers _
  · dsimp only
    split
    · exact writeMsg_answers _
    · next h =>
      -- no packet and no error
      have hsome := happ.packet age.session.session.traceId result error (by rw [h])
      rw [h] at hsome
      cases hsome
    · next err _ _ _ =>
      split
      · exact writeMsg_answers _
      · next hnone =>
        have hsome := happ.fallback age.session.session.traceId err
        rw [hnone] at hsome
        cases hsome

theorem toError_answers (happ : age.app.Lawful) (hid : msgid ≠ []) (error : GoString) :
    (age.toError topic msgid error).Ends (.ok ()) (Answers topic) := by
  unfold toError
  rw [if_pos hid]
  exact toResult_answers happ .nil error

/-- The call of a module is answered when the session can be serialized, and is silent else. -/
theorem callModule_answers (happ : age.app.Lawful) (hid : msgid ≠ []) (msg moduleType fn : GoString)
    (serverSession : ServerSession ι) {b : List UInt8}
    (hb : (age.callSession topic).serializable age.proto = .ok b) :
    (age.callModule topic msg moduleType fn msgid serverSession).Ends (.ok ()) (Answers topic) := by
  unfold callModule
  rw [hb]
  dsimp only
  rw [if_pos hid]
  refine ((Prog.Ends.modify _).bind (toResult_answers happ _ _)).mono ?_
  rintro s s' ⟨s₁, rfl, h⟩
  exact Answers.of_silent rfl h

theorem callModule_silent (msg moduleType fn : GoString) (serverSession : ServerSession ι) {e : String}
    (he : (age.callSession topic).serializable age.proto = .error e) :
    (age.callModule topic msg moduleType fn msgid serverSession).Ends (.ok ()) Silent := by
  unfold callModule
  rw [he]
  exact (Prog.Ends.pure ()).mono fun s s' h => h ▸ rfl

/-- The request is refused before the session is serialized. -/
def Refused (age : MqttAgent α υ ι) (moduleType fn : GoString) (msg : List UInt8) : Prop :=
  ¬ hd <+: fn ∨ age.getRouteServer moduleType = none ∨
    (isObject msg = true ∧ age.validJson msg = false)

theorem defaultRoute_answers (happ : age.app.Lawful) (hid : msgid ≠ []) {msg moduleType fn : GoString}
    (hsplit : topic.splitOn 0x2f = [moduleType, fn, msgid])
    (h : age.Refused moduleType fn msg ∨
      ∃ b, (age.callSession topic).serializable age.proto = .ok b) :
    (age.defaultRoute topic msg).Ends (.ok ()) (Answers topic) := by
  unfold defaultRoute
  rw [hsplit]
  dsimp only
  split
  · exact toError_answers happ hid _
  · next hfn =>
    split
    · exact toError_answers happ hid _
    · next server hserver =>
      split
      · exact toError_answers happ hid _
      · next hjson =>
        rcases h with (hfn' | hnone | ⟨hobject, hvalid⟩) | ⟨b, hb⟩
        · exact absurd hfn' hfn
        · rw [hserver] at hnone
          cases hnone
        · rw [hobject, hvalid] at hjson
          exact absurd rfl hjson
        · exact callModule_answers happ hid _ _ _ _ hb

theorem defaultRoute_silent {msg moduleType fn : GoString}
    (hsplit : topic.splitOn 0x2f = [moduleType, fn, msgid])
    (haccepted : ¬ age.Refused moduleType fn msg) {e : String}
    (he : (age.callSession topic).serializable age.proto = .error e) :
    (age.defaultRoute topic msg).Ends (.ok ()) Silent := by
  obtain ⟨hfn, hserver, hjson⟩ : hd <+: fn ∧ age.getRouteServer moduleType ≠ none ∧
      ¬ (isObject msg = true ∧ age.validJson msg = false) := by
    unfold Refused at haccepted
    push Not at haccepted
    refine ⟨haccepted.1, haccepted.2.1, fun h => ?_⟩
    exact absurd h.2 (haccepted.2.2 h.1)
  obtain ⟨server, hserver⟩ := Option.ne_none_iff_exists'.mp hserver
  have hok : ¬ (isObject msg && !age.validJson msg) = true := by
    rw [Bool.and_eq_true, Bool.not_eq_true']
    exact hjson
  unfold defaultRoute
  rw [hsplit]
  dsimp only
  rw [if_neg (fun h => h hfn), hserver]
  dsimp only
  rw [if_neg hok]
  exact callModule_silent _ _ _ _ he

theorem workerDeferred_silent (s : AgentState) : Silent s (age.workerDeferred s).2 := by
  unfold workerDeferred
  split
  · split
    · rfl
    · next heartbeat _ =>
      cases heartbeat age.session with
      | ok u => rfl
      | error v => rfl
  · rfl

/-- The worker writes what the route writes. -/
theorem recoverworker_spec {pack : Pack} {msg : List UInt8} {R : AgentState → AgentState → Prop}
    (htype : pack.msgType = Mqtt.PUBLISH) (hpublish : publish pack = .ok (topic, msg))
    (hroute : age.routeHandler = none) (hdefault : (age.defaultRoute topic msg).Ends (.ok ()) R)
    (s : AgentState) :
    ∃ s₁ s₂, Silent s s₁ ∧ R s₁ s₂ ∧ Silent s₂ (age.recoverworker pack s).2 := by
  have hbody : (age.recoverworkerBody pack).Ends (.ok ()) fun s s' => ∃ s₁, Silent s s₁ ∧ R s₁ s' := by
    unfold recoverworkerBody
    rw [if_pos htype, hpublish, hroute]
    refine ((Prog.Ends.modify _).bind ((Prog.Ends.lift _).bind hdefault)).mono ?_
    rintro s s' ⟨_, rfl, s₁, rfl, h⟩
    refine ⟨_, ?_, h⟩
    rfl
  have hrun : Relation.Comp (fun s s' => ∃ s₁, Silent s s₁ ∧ R s₁ s') Silent s
      (age.recoverworker pack s).2 :=
    Prog.leads_deferRecover (fun s => (hbody s).2) (fun _ s => workerDeferred_silent s) s
  obtain ⟨s₂, ⟨s₁, hs₁, hR⟩, hlast⟩ := hrun
  exact ⟨s₁, s₂, hs₁, hR, hlast⟩

section Request

variable {pack : Pack} {msg : List UInt8} {moduleType fn : GoString} {s : AgentState}

theorem onRecover_of_lt (hqueue : s.queue < age.concurrentTasks) :
    age.onRecover pack s = age.recoverworker pack { s with queue := s.queue + 1 } := by
  have hwait : age.wait s = (.ok none, { s with queue := s.queue + 1 }) := if_pos hqueue
  unfold onRecover
  rw [Prog.bind_of_ok (congrArg Prod.fst hwait), hwait]

/-- The queue is full. -/
theorem onRecover_of_not_lt (hqueue : ¬ s.queue < age.concurrentTasks)
    (hpublish : publish pack = .ok (topic, msg)) :
    age.onRecover pack s = age.toResult topic .nil (goString "the work queue is full!") s := by
  have hwait : age.wait s = (.ok (some "the work queue is full!"), s) := if_neg hqueue
  unfold onRecover
  rw [Prog.bind_of_ok (congrArg Prod.fst hwait), hwait, hpublish]
  rfl

/-- The request is accepted and its session cannot be serialized. -/
theorem onRecover_silent (hroute : age.routeHandler = none) (htype : pack.msgType = Mqtt.PUBLISH)
    (hpublish : publish pack = .ok (topic, msg))
    (hsplit : topic.splitOn 0x2f = [moduleType, fn, msgid]) (hqueue : s.queue < age.concurrentTasks)
    (haccepted : ¬ age.Refused moduleType fn msg) {e : String}
    (he : (age.callSession topic).serializable age.proto = .error e) :
    Silent s (age.onRecover pack s).2 := by
  obtain ⟨s₁, s₂, h₁, hsilent, h₂⟩ := recoverworker_spec htype hpublish hroute
    (defaultRoute_silent hsplit haccepted he) { s with queue := s.queue + 1 }
  have hqueued : Silent s { s with queue := s.queue + 1 } := rfl
  rw [onRecover_of_lt hqueue]
  exact h₂.trans (hsilent.trans (h₁.trans hqueued))

theorem onRecover_answers (happ : age.app.Lawful) (hroute : age.routeHandler = none)
    (htype : pack.msgType = Mqtt.PUBLISH) (hpublish : publish pack = .ok (topic, msg))
    (hsplit : topic.splitOn 0x2f = [moduleType, fn, msgid]) (hid : msgid ≠ [])
    (h : age.concurrentTasks ≤ s.queue ∨ age.Refused moduleType fn msg ∨
      ∃ b, (age.callSession topic).serializable age.proto = .ok b) :
    Answers topic s (age.onRecover pack s).2 := by
  by_cases hqueue : s.queue < age.concurrentTasks
  · have hroutes := h.resolve_left (not_le.mpr hqueue)
    obtain ⟨s₁, s₂, h₁, hanswers, h₂⟩ := recoverworker_spec htype hpublish hroute
      (defaultRoute_answers happ hid hsplit hroutes) { s with queue := s.queue + 1 }
    have hqueued : Silent s { s with queue := s.queue + 1 } := rfl
    rw [onRecover_of_lt hqueue]
    exact (Answers.of_silent (h₁.trans hqueued) hanswers).and_silent h₂
  · rw [onRecover_of_not_lt hqueue hpublish]
    exact (toResult_answers happ .nil _ s).2

end Request

/-- A request is answered once exactly when the queue is full, the request is refused, or the session can
be serialized with its topic. -/
theorem onRecover_answers_iff (age : MqttAgent α υ ι) (happ : age.app.Lawful)
    (hroute : age.routeHandler = none) (pack : Pack) (htype : pack.msgType = Mqtt.PUBLISH)
    (mid : ℕ) (topic : GoString) (msg : List UInt8)
    (hvariable : pack.variable_ = .publish { topicName := some topic, mid := mid, msg := msg })
    (moduleType fn msgid : GoString) (hsplit : topic.splitOn 0x2f = [moduleType, fn, msgid])
    (hid : msgid ≠ []) (s : AgentState) :
    Answers topic s (age.onRecover pack s).2 ↔
      age.concurrentTasks ≤ s.queue ∨ age.Refused moduleType fn msg ∨
        ∃ b, (age.callSession topic).serializable age.proto = .ok b := by
  have hpublish : publish pack = .ok (topic, msg) := by
    unfold publish
    rw [hvariable]
  refine ⟨fun hanswers => ?_, onRecover_answers happ hroute htype hpublish hsplit hid⟩
  by_contra hcond
  obtain ⟨hqueue, hrest⟩ := not_or.mp hcond
  obtain ⟨haccepted, hfails⟩ := not_or.mp hrest
  cases hserialize : (age.callSession topic).serializable age.proto with
  | ok b => exact hfails ⟨b, hserialize⟩
  | error e =>
    exact hanswers.not_silent
      (onRecover_silent hroute htype hpublish hsplit (not_le.mp hqueue) haccepted hserialize)

/-! A gate with one place in its queue and one module `a`, which answers every call with `nil`. Its client
sends a request with the message id `1`, and one whose message id is no UTF-8. -/

/-- `a/HD_b/1`. -/
def goodTopic : GoString := [0x61, 0x2f, 0x48, 0x44, 0x5f, 0x62, 0x2f, 0x31]

/-- `a/HD_b/` and the byte `ff`. -/
def badTopic : GoString := [0x61, 0x2f, 0x48, 0x44, 0x5f, 0x62, 0x2f, 0xff]

/-- The clone of a new session, with a topic. -/
def requestImp : SessionImp where
  spanId := "1"
  settings := some ∅
  topic := goodTopic

def sampleProto : Proto :=
  .single requestImp { requestImp with settings := none }
    [0x3a, 1, 0x31, 0x52, 8, 0x61, 0x2f, 0x48, 0x44, 0x5f, 0x62, 0x2f, 0x31]

def sampleAgent : MqttAgent Unit Unit Unit where
  panicNil := true
  app :=
    { hook := none
      jsonMarshal := fun _ _ _ =>
        .ok (goString "\x7b\"Trace\":\"\",\"Error\":\"\",\"Result\":null\x7d") }
  proto := sampleProto
  session := { app := some (), session := { settings := some ∅ } }
  concurrentTasks := 1
  routeHandler := none
  getRouteServer := fun moduleType => if moduleType = [0x61] then some ⟨fun _ _ _ => (.nil, [])⟩ else none
  validJson := fun _ => true
  generateID := "1"
  heartbeat := 0
  now := 0
  storageHeartbeat := none

def sampleState : AgentState := ⟨0, 0, 0, 0, [], []⟩

theorem lawful_sampleAgent : sampleAgent.app.Lawful :=
  App.lawful_of_json rfl (fun _ _ => ⟨_, rfl⟩) fun _ _ _ h => by cases h

theorem onRecover_answers_iff_sampleAgent :
    Answers goodTopic sampleState
      (sampleAgent.onRecover (Mqtt.getPubPack 0 0 0 goodTopic []) sampleState).2 :=
  (onRecover_answers_iff sampleAgent lawful_sampleAgent rfl (Mqtt.getPubPack 0 0 0 goodTopic []) rfl 0
    goodTopic [] rfl [0x61] [0x48, 0x44, 0x5f, 0x62] [0x31] (by decide) (by decide) sampleState).mpr
    (.inr (.inr ⟨_, Proto.marshal_single requestImp { requestImp with settings := none } _⟩))

/-- The session cannot be serialized, and nothing is written. -/
theorem not_answers_badTopic :
    sampleAgent.app.Lawful ∧ badTopic.splitOn 0x2f = [[0x61], [0x48, 0x44, 0x5f, 0x62], [0xff]] ∧
      ¬ Answers badTopic sampleState
        (sampleAgent.onRecover (Mqtt.getPubPack 0 0 0 badTopic []) sampleState).2 := by
  have hsplit : badTopic.splitOn 0x2f = [[0x61], [0x48, 0x44, 0x5f, 0x62], [0xff]] := by decide
  have hmarshal : (sampleAgent.callSession badTopic).serializable sampleAgent.proto
      = .error "unknown message" := by
    refine if_neg fun h => ?_
    have htopic : badTopic = goodTopic := congrArg SessionImp.topic h
    revert htopic
    decide
  have haccepted : ¬ sampleAgent.Refused [0x61] [0x48, 0x44, 0x5f, 0x62] [] := by
    rintro (hfn | hserver | ⟨hobject, -⟩)
    · exact hfn (by decide)
    · cases hserver
    · cases hobject
  have hsilent : Silent sampleState
      (sampleAgent.onRecover (Mqtt.getPubPack 0 0 0 badTopic []) sampleState).2 :=
    onRecover_silent rfl rfl rfl hsplit (by decide) haccepted hmarshal
  exact ⟨lawful_sampleAgent, hsplit, fun h => h.not_silent hsilent⟩

end MqttAgent

end Vmqant.BaseGate
