import Vmqant.Gate.Session

/-!
# Session agents

Reference: `gate/base/session.go`, lines 32-78, 167-169, 257-288, 586-610 and 653-667; `gate/define.go`,
lines 30-31.

A `gate.Session` is a message with the app, the local user data and the function that judges guests.
A clone is made field by field. The locks are left out, since each method holds them to its end.
-/

namespace Vmqant.BaseGate

/-- What the methods of a `gate.Session` show; `υ` are the values of the local user data. -/
@[ext]
structure Shown (υ : Type) where
  ip : String
  network : String
  userId : String
  sessionId : String
  serverId : String
  traceId : String
  spanId : String
  topic : List UInt8
  settings : String → Option String
  userdata : Option υ

/-- `sessionagent`; `α` are the apps. -/
structure SessionAgent (α υ : Type) where
  app : Option α
  session : SessionImp
  userdata : Option υ := none
  judgeGuest : Option (Shown υ → Bool) := none

/-- `proto.Marshal` and `proto.Unmarshal` of a `SessionImp`. -/
structure Proto where
  marshal : SessionImp → Except String (List UInt8)
  unmarshal : List UInt8 → Except String SessionImp

/-- The message of a clone. `spanId` is a new id; neither the topic nor the carrier is copied. -/
def SessionImp.clone (s : SessionImp) (spanId : String) : SessionImp where
  ip := s.ip
  network := s.network
  userId := s.userId
  sessionId := s.sessionId
  serverId := s.serverId
  traceId := s.traceId
  spanId := spanId
  settings := some s.cloneSettings

def SessionImp.setTopic (s : SessionImp) (topic : List UInt8) : SessionImp := { s with topic := topic }

/-- `update`: the settings are copied, the ids of the trace and the span stay. -/
def SessionImp.update (s new : SessionImp) : SessionImp :=
  { s with
    userId := new.userId
    ip := new.ip
    topic := new.topic
    network := new.network
    sessionId := new.sessionId
    serverId := new.serverId
    settings := some new.cloneSettings }

namespace SessionAgent

variable {α υ : Type}

def shown (s : SessionAgent α υ) : Shown υ where
  ip := s.session.ip
  network := s.session.network
  userId := s.session.userId
  sessionId := s.session.sessionId
  serverId := s.session.serverId
  traceId := s.session.traceId
  spanId := s.session.spanId
  topic := s.session.topic
  settings := s.session.load
  userdata := s.userdata

/-- `NewSession`; `judge` is `gate.JudgeGuest`. -/
def newSession (proto : Proto) (judge : Option (Shown υ → Bool)) (app : Option α) (data : List UInt8) :
    Except String (SessionAgent α υ) :=
  (SessionImp.newSession proto.unmarshal data).map fun session =>
    { app := app
      session := session
      judgeGuest := if app.isSome then judge else none }

/-- `Serializable`, which is also `Marshal`. -/
def serializable (proto : Proto) (s : SessionAgent α υ) : Except String (List UInt8) :=
  proto.marshal s.session

/-- `Clone`: the function that judges guests is not copied. -/
def clone (s : SessionAgent α υ) (spanId : String) : SessionAgent α υ where
  app := s.app
  session := s.session.clone spanId
  userdata := s.userdata

def setTopic (s : SessionAgent α υ) (topic : List UInt8) : SessionAgent α υ :=
  { s with session := s.session.setTopic topic }

/-- `IsGuest`. -/
def isGuest (s : SessionAgent α υ) : Bool :=
  match s.judgeGuest with
  | some judgeGuest => judgeGuest s.shown
  | none => s.session.userId == ""

end SessionAgent

namespace SessionImp

variable {s : SessionImp}

@[simp] theorem load_clone (spanId : String) : (s.clone spanId).load = s.load :=
  funext fun key => lookup_cloneSettings key

@[simp] theorem load_makeSettings : s.makeSettings.load = s.load := rfl

end SessionImp

/-! ## Lossless marshalling -/

/-- Two messages with the same fields; of a map only what it holds counts, since an empty map is not
told from `nil`. -/
structure SessionImp.Same (s s' : SessionImp) : Prop where
  ip_eq : s'.ip = s.ip
  network_eq : s'.network = s.network
  userId_eq : s'.userId = s.userId
  sessionId_eq : s'.sessionId = s.sessionId
  serverId_eq : s'.serverId = s.serverId
  traceId_eq : s'.traceId = s.traceId
  spanId_eq : s'.spanId = s.spanId
  topic_eq : s'.topic = s.topic
  settings_eq : ∀ key, (s'.settings.getD ∅).lookup key = (s.settings.getD ∅).lookup key
  carrier_eq : ∀ key, (s'.carrier.getD ∅).lookup key = (s.carrier.getD ∅).lookup key

/-- What is marshalled can be unmarshalled. -/
def Proto.Lossless (proto : Proto) : Prop :=
  ∀ s b, proto.marshal s = .ok b → ∃ s', proto.unmarshal b = .ok s' ∧ s.Same s'

/-- A protocol that knows one message: `s` is sent as `b` and read as `s'`. -/
def Proto.single (s s' : SessionImp) (b : List UInt8) : Proto where
  marshal := fun x => if x = s then .ok b else .error "unknown message"
  unmarshal := fun x => if x = b then .ok s' else .error "proto: cannot parse invalid wire-format data"

theorem Proto.marshal_single (s s' : SessionImp) (b : List UInt8) :
    (Proto.single s s' b).marshal s = .ok b := if_pos rfl

theorem Proto.lossless_single {s s' : SessionImp} (h : s.Same s') (b : List UInt8) :
    (Proto.single s s' b).Lossless := by
  intro x c hx
  unfold Proto.single at hx ⊢
  dsimp only at hx ⊢
  split at hx
  · next hs =>
    cases hx
    exact ⟨s', if_pos rfl, hs ▸ h⟩
  · cases hx

end Vmqant.BaseGate
