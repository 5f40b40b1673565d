import Vmqant.Gate.SessionAgent

/-!
# Sessions as parameters of a call

Reference: `gate/base/mqtt_gate.go`, lines 29-30 and 122-160; `gate/define.go`, lines 24-28.

The gate serializes the sessions among the parameters of a call. The receiver makes a session from the
bytes and hands out a clone of it, and the clone has neither the topic nor the function that judges
guests. `deserialize_serialize_iff` says which sessions survive this.
-/

namespace Vmqant.BaseGate

variable {α υ : Type}

/-- A parameter as `Serialize` sees it. The untyped `nil` does not get here. -/
inductive Param (α υ : Type) where
  | session (s : SessionAgent α υ)
  | protocolMarshal (data : List UInt8)
  /-- Another pointer. -/
  | pointer (type : String)
  /-- A nil pointer, or no pointer. -/
  | notPointer (type : String)

/-- What `Serialize` and `Deserialize` use of a gate, and of the process that it runs in. -/
structure Transport (α υ : Type) where
  proto : Proto
  app : Option α
  /-- `gate.JudgeGuest`. -/
  judgeGuest : Option (Shown υ → Bool)
  /-- The id that `GenerateID` gives next. -/
  generateID : String

namespace Transport

def rpcParamSessionType : String := "SESSION"

def rpcParamProtocolMarshalType : String := "ProtocolMarshal"

/-- `Serialize`. -/
def serialize (gt : Transport α υ) : Param α υ → Except String (String × List UInt8)
  | .notPointer type => .error s!"Serialize [{type} ] or not pointer type"
  | .session s => (s.serializable gt.proto).map fun bytes => (rpcParamSessionType, bytes)
  | .protocolMarshal data => .ok (rpcParamProtocolMarshalType, data)
  | .pointer type => .error s!"args [{type}] Types not allowed"

/-- `Deserialize`. -/
def deserialize (gt : Transport α υ) (ptype : String) (b : List UInt8) : Except String (Param α υ) :=
  if ptype = rpcParamSessionType then
    (SessionAgent.newSession gt.proto gt.judgeGuest gt.app b).map fun mps =>
      .session (mps.clone gt.generateID)
  else if ptype = rpcParamProtocolMarshalType then .ok (.protocolMarshal b)
  else .error s!"args [{ptype}] Types not allowed"

end Transport

/-! ## Which sessions survive -/

/-- The verdict of the process on a session: that of `gate.JudgeGuest`, or of the rule that a guest has
no user id. -/
def verdict (judge : Option (Shown υ → Bool)) (shown : Shown υ) : Bool :=
  match judge with
  | some judgeGuest => judgeGuest shown
  | none => shown.userId == ""

/-- The session `r` shows what `s` shows, up to the span id and the local user data, which is not sent,
and tells guests as the process does. -/
structure Survives (judge : Option (Shown υ → Bool)) (s r : SessionAgent α υ) : Prop where
  shown_eq : r.shown = { s.shown with spanId := r.session.spanId, userdata := r.userdata }
  isGuest_eq : r.isGuest = verdict judge r.shown

namespace Transport

/-- What a session shows when it is received. -/
def received (gt : Transport α υ) (s : SessionAgent α υ) : Shown υ :=
  { s.shown with spanId := gt.generateID, topic := [], userdata := none }

variable {gt : Transport α υ} {s : SessionAgent α υ} {ptype : String} {b : List UInt8}

/-- The receiver gets a session that shows `received`, and that no function judges. -/
theorem deserialize_serialize (hproto : gt.proto.Lossless)
    (h : gt.serialize (.session s) = .ok (ptype, b)) :
    ∃ r, gt.deserialize ptype b = .ok (.session r) ∧ r.shown = gt.received s ∧ r.judgeGuest = none := by
  have hmarshal : ptype = rpcParamSessionType ∧ gt.proto.marshal s.session = .ok b := by
    unfold serialize SessionAgent.serializable at h
    dsimp only at h
    cases hs : gt.proto.marshal s.session with
    | error e =>
      rw [hs] at h
      cases h
    | ok bytes =>
      rw [hs] at h
      cases h
      exact ⟨rfl, rfl⟩
  obtain ⟨rfl, hb⟩ := hmarshal
  obtain ⟨s', hs', hsame⟩ := hproto s.session b hb
  have hload : s'.load = s.session.load := funext hsame.settings_eq
  refine ⟨⟨gt.app, s'.makeSettings.clone gt.generateID, none, none⟩, ?_, ?_, rfl⟩
  · unfold deserialize SessionAgent.newSession SessionImp.newSession
    rw [if_pos rfl, hs']
    rfl
  · unfold SessionAgent.shown received
    rw [SessionImp.load_clone, SessionImp.load_makeSettings, hload]
    exact Shown.ext hsame.ip_eq hsame.network_eq hsame.userId_eq hsame.sessionId_eq hsame.serverId_eq
      hsame.traceId_eq rfl rfl rfl rfl

/-- A session survives the transport exactly when it has no topic and `gate.JudgeGuest`, if set, gives
it, under a new span id and without the user data, the verdict of the user id. -/
theorem deserialize_serialize_iff (gt : Transport α υ) (s : SessionAgent α υ) (ptype : String)
    (b : List UInt8) (hproto : gt.proto.Lossless) (h : gt.serialize (.session s) = .ok (ptype, b)) :
    ∃ r, gt.deserialize ptype b = .ok (.session r) ∧
      (Survives gt.judgeGuest s r ↔
        s.session.topic = [] ∧
          ∀ judge, gt.judgeGuest = some judge →
            judge { s.shown with spanId := gt.generateID, userdata := none }
              = (s.session.userId == "")) := by
  obtain ⟨r, hr, hshown, hnone⟩ := deserialize_serialize hproto h
  have huser : r.session.userId = s.session.userId := congrArg Shown.userId hshown
  have hguest : r.isGuest = (s.session.userId == "") := by
    unfold SessionAgent.isGuest
    rw [hnone, huser]
  -- without a topic there is none to lose
  have hreceived : s.session.topic = [] →
      r.shown = { s.shown with spanId := gt.generateID, userdata := none } := by
    intro htopic
    rw [hshown]
    unfold received
    rw [← htopic]
    rfl
  refine ⟨r, hr, ?_, ?_⟩
  · rintro ⟨hall, hverdict⟩
    have htopic : s.session.topic = [] := by
      have hsame : r.shown.topic = s.shown.topic := by rw [hall]
      rw [hshown] at hsame
      exact hsame.symm
    refine ⟨htopic, fun judge hjudge => ?_⟩
    rw [hguest, hjudge, hreceived htopic] at hverdict
    exact hverdict.symm
  · rintro ⟨htopic, hjudge⟩
    refine ⟨?_, ?_⟩
    · have hspan : r.session.spanId = gt.generateID := congrArg Shown.spanId hshown
      have hdata : r.userdata = none := congrArg Shown.userdata hshown
      rw [hspan, hdata]
      exact hreceived htopic
    · rw [hguest, hreceived htopic]
      unfold verdict
      split
      · next judge hj => exact (hjudge judge hj).symm
      · rfl

/-- The session of the user `u`, without and with the topic `a/b`. -/
def userImp : SessionImp := { userId := "u", settings := some ∅ }

def topicImp : SessionImp := userImp.setTopic [0x61, 0x2f, 0x62]

/-- A gate that sends `userImp`. -/
def userGate (judge : Option (Shown Unit → Bool)) : Transport Unit Unit where
  proto := .single userImp { userId := "u" } [0x1a, 1, 0x75]
  app := some ()
  judgeGuest := judge
  generateID := "0000000000000001"

/-- A gate that sends `topicImp`. -/
def topicGate : Transport Unit Unit where
  proto := .single topicImp { userId := "u", topic := [0x61, 0x2f, 0x62] }
    [0x1a, 1, 0x75, 0x52, 3, 0x61, 0x2f, 0x62]
  app := some ()
  judgeGuest := none
  generateID := "0000000000000001"

theorem same_userImp : userImp.Same { userId := "u" } :=
  ⟨rfl, rfl, rfl, rfl, rfl, rfl, rfl, rfl, fun _ => rfl, fun _ => rfl⟩

theorem same_topicImp : topicImp.Same { userId := "u", topic := [0x61, 0x2f, 0x62] } :=
  ⟨rfl, rfl, rfl, rfl, rfl, rfl, rfl, rfl, fun _ => rfl, fun _ => rfl⟩

theorem serialize_userGate (judge : Option (Shown Unit → Bool)) (s : SessionAgent Unit Unit)
    (hs : s.session = userImp) :
    (userGate judge).serialize (.session s) = .ok ("SESSION", [0x1a, 1, 0x75]) := by
  unfold serialize SessionAgent.serializable userGate
  dsimp only
  rw [hs, Proto.marshal_single]
  rfl

theorem serialize_topicGate :
    topicGate.serialize (.session ⟨some (), topicImp, none, none⟩)
      = .ok ("SESSION", [0x1a, 1, 0x75, 0x52, 3, 0x61, 0x2f, 0x62]) := by
  unfold serialize SessionAgent.serializable topicGate
  dsimp only
  rw [Proto.marshal_single]
  rfl

theorem deserialize_serialize_iff_userGate :
    (userGate none).proto.Lossless ∧
      (userGate none).serialize (.session ⟨some (), userImp, none, none⟩)
        = .ok ("SESSION", [0x1a, 1, 0x75]) ∧
      ∃ r, (userGate none).deserialize "SESSION" [0x1a, 1, 0x75] = .ok (.session r) ∧
        (Survives none ⟨some (), userImp, none, none⟩ r ↔
          userImp.topic = [] ∧
            ∀ judge, (userGate none).judgeGuest = some judge →
              judge
                  { (⟨some (), userImp, none, none⟩ : SessionAgent Unit Unit).shown with
                    spanId := (userGate none).generateID
                    userdata := none }
                = (userImp.userId == "")) :=
  ⟨Proto.lossless_single same_userImp _, serialize_userGate none _ rfl,
    deserialize_serialize_iff (userGate none) ⟨some (), userImp, none, none⟩ "SESSION" [0x1a, 1, 0x75]
      (Proto.lossless_single same_userImp _) (serialize_userGate none _ rfl)⟩

/-- The topic is lost; so is the verdict of a function that takes every session for a guest's. -/
theorem not_survives_topicGate_userGate :
    (topicGate.proto.Lossless ∧
      topicGate.serialize (.session ⟨some (), topicImp, none, none⟩)
        = .ok ("SESSION", [0x1a, 1, 0x75, 0x52, 3, 0x61, 0x2f, 0x62]) ∧
      ∃ r, topicGate.deserialize "SESSION" [0x1a, 1, 0x75, 0x52, 3, 0x61, 0x2f, 0x62]
          = .ok (.session r) ∧
        ¬ Survives none ⟨some (), topicImp, none, none⟩ r) ∧
    (userGate (some fun _ => true)).proto.Lossless ∧
      (userGate (some fun _ => true)).serialize (.session ⟨some (), userImp, none, some fun _ => true⟩)
        = .ok ("SESSION", [0x1a, 1, 0x75]) ∧
      ∃ r, (userGate (some fun _ => true)).deserialize "SESSION" [0x1a, 1, 0x75] = .ok (.session r) ∧
        ¬ Survives (some fun _ => true) ⟨some (), userImp, none, some fun _ => true⟩ r := by
  refine ⟨⟨Proto.lossless_single same_topicImp _, serialize_topicGate, ?_⟩,
    Proto.lossless_single same_userImp _, serialize_userGate _ _ rfl, ?_⟩
  · refine ⟨⟨some (), _, none, none⟩, rfl, fun h => ?_⟩
    have htopic : ([] : List UInt8) = [0x61, 0x2f, 0x62] := congrArg Shown.topic h.shown_eq
    cases htopic
  · refine ⟨⟨some (), _, none, none⟩, rfl, fun h => ?_⟩
    have hguest : false = true := h.isGuest_eq
    cases hguest

end Transport

end Vmqant.BaseGate
