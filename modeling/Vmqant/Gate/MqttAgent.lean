import Vmqant.Common.Panic
import Vmqant.Gate.Mqtt.Pack
import Vmqant.Gate.SessionTransport

/-!
# The agent of a client

Reference: `gate/base/mqtt_agent.go`, lines 91-108, 212-347 and 367-380; `app/app.go`, lines 44-56 and
540-562.

What the gate does with a packet of a client: `OnRecover` takes a place in the work queue and starts
`recoverworker`, which routes a PUBLISH to a module and writes the answer back. The worker is followed to
its end. The state are the places that are taken, the counters of the agent, the calls of the modules and
the calls of `WriteMsg`; what the send hook and the client do with a message is left out. Texts are Go
strings, since parts of the topic go into them.
-/

namespace Vmqant.BaseGate

open Mqtt (GoString Pack)

/-- The bytes of a text. -/
def goString (s : String) : GoString := s.toUTF8.toList

/-- A result as `toResult` sees it. -/
inductive Result (ι : Type) where
  | nil
  | protocolMarshal (data : List UInt8)
  | other (v : ι)

/-- What the agent uses of the app. -/
structure App (ι : Type) where
  /-- What `SetProtocolMarshal` was given; it returns the data of a packet, or `nil`, and an error. -/
  hook : Option (String → Result ι → GoString → Option (List UInt8) × GoString)
  /-- `json.Marshal` of a `resultInfo` with a trace id, a result and an error. -/
  jsonMarshal : String → Result ι → GoString → Except GoString (List UInt8)

/-- `ProtocolMarshal`. -/
def App.protocolMarshal {ι : Type} (app : App ι) (trace : String) (result : Result ι)
    (error : GoString) : Option (List UInt8) × GoString :=
  match app.hook with
  | some hook => hook trace result error
  | none =>
    match app.jsonMarshal trace result error with
    | .ok b => (some b, [])
    | .error err => (none, err)

/-- A module that is called: `CallArgs` returns a result and an error. -/
structure ServerSession (ι : Type) where
  callArgs : GoString → List String → List (List UInt8) → Result ι × GoString

/-- An agent and what it uses. -/
structure MqttAgent (α υ ι : Type) where
  panicNil : Bool
  app : App ι
  proto : Proto
  session : SessionAgent α υ
  /-- The capacity of the work queue. -/
  concurrentTasks : ℕ
  /-- `OnRoute` of the route handler. -/
  routeHandler : Option (SessionAgent α υ → GoString → List UInt8 →
    Except PanicValue (Bool × Result ι × Option GoString))
  /-- `GetRouteServer`, `none` on an error. -/
  getRouteServer : GoString → Option (ServerSession ι)
  /-- `json.Unmarshal` into an `interface` succeeds. -/
  validJson : List UInt8 → Bool
  /-- The id that `GenerateID` gives next. -/
  generateID : String
  /-- The interval of heartbeats, and the time when the worker ends. -/
  heartbeat : ℤ
  now : ℤ
  /-- `Heartbeat` of the storage handler. -/
  storageHeartbeat : Option (SessionAgent α υ → Except PanicValue Unit)

/-- A call of a module; `reply` tells `CallArgs` from `CallNRArgs`. -/
structure ModuleCall where
  server : GoString
  reply : Bool
  fn : GoString
  argsType : List String
  args : List (List UInt8)
deriving DecidableEq

structure AgentState where
  /-- The elements of the channel `ch`. -/
  queue : ℕ
  revNum : ℤ
  sendNum : ℤ
  lastStorageHeartbeatDataTime : ℤ
  calls : List ModuleCall
  /-- The calls of `WriteMsg`. -/
  written : List (GoString × List UInt8)
deriving DecidableEq

namespace MqttAgent

variable {α υ ι : Type}

/-- `Wait`. -/
def wait (age : MqttAgent α υ ι) : Prog AgentState (Option String) := fun s =>
  if s.queue < age.concurrentTasks then (.ok none, { s with queue := s.queue + 1 })
  else (.ok (some "the work queue is full!"), s)

/-- `Finish`. -/
def finish : Prog AgentState Unit := .modify fun s => { s with queue := s.queue - 1 }

/-- `WriteMsg`. -/
def writeMsg (topic : GoString) (body : List UInt8) : Prog AgentState Unit :=
  .modify fun s => { s with sendNum := s.sendNum + 1, written := s.written ++ [(topic, body)] }

/-- `toResult`. The second `ProtocolMarshal` may give no packet, whose data is then asked for. -/
def toResult (age : MqttAgent α υ ι) (topic : GoString) (result : Result ι) (error : GoString) :
    Prog AgentState Unit :=
  match result with
  | .protocolMarshal data => writeMsg topic data
  | result =>
    let traceId := age.session.session.traceId
    match age.app.protocolMarshal traceId result error with
    | (some b, []) => writeMsg topic b
    | (none, []) => pure ()
    | (_, err) =>
      match (age.app.protocolMarshal traceId .nil err).1 with
      | some br => writeMsg topic br
      | none => .panic .nilDereference

/-- The error of a request, which is written when the topic has a message id. -/
def toError (age : MqttAgent α υ ι) (topic msgid error : GoString) : Prog AgentState Unit :=
  if msgid ≠ [] then age.toResult topic .nil error else pure ()

/-- The body looks like a JSON object. -/
def isObject (msg : List UInt8) : Bool :=
  msg.head? == some 0x7b && msg.getLast? == some 0x7d

/-- `HD_`. -/
def hd : GoString := [0x48, 0x44, 0x5f]

/-- The session that goes with the call, as it is serialized. -/
def callSession (age : MqttAgent α υ ι) (topic : GoString) : SessionAgent α υ :=
  (age.session.clone age.generateID).setTopic topic

/-- The call of a module. -/
def callModule (age : MqttAgent α υ ι) (topic msg : GoString) (moduleType fn msgid : GoString)
    (serverSession : ServerSession ι) : Prog AgentState Unit :=
  let argsType := [Transport.rpcParamSessionType, if isObject msg then "map" else "bytes"]
  match (age.callSession topic).serializable age.proto with
  -- nobody is told
  | .error _ => pure ()
  | .ok b => do
    .modify fun s =>
      { s with calls := s.calls ++ [⟨moduleType, msgid ≠ [], fn, argsType, [b, msg]⟩] }
    if msgid ≠ [] then
      let (result, e) := serverSession.callArgs fn argsType [b, msg]
      age.toResult topic result e
    else pure ()

/-- The default route, for the topic `[moduleType@moduleID]/[handler]/[msgid]`. -/
def defaultRoute (age : MqttAgent α υ ι) (topic : GoString) (msg : List UInt8) :
    Prog AgentState Unit :=
  match topic.splitOn 0x2f with
  | moduleType :: fn :: rest =>
    let msgid := match rest with
      | [msgid] => msgid
      | _ => []
    if ¬ hd <+: fn then
      age.toError topic msgid (goString "Method(" ++ fn ++ goString ") must begin with 'HD_'")
    else
      match age.getRouteServer moduleType with
      | none =>
        age.toError topic msgid (goString "Service(type:" ++ moduleType ++ goString ") not found")
      | some serverSession =>
        if isObject msg && !age.validJson msg then
          age.toError topic msgid (goString "The JSON format is incorrect")
        else age.callModule topic msg moduleType fn msgid serverSession
  | _ => age.toResult topic .nil (goString
      "Topic must be [moduleType@moduleID]/[handler]|[moduleType@moduleID]/[handler]/[msgid]")

/-- The route of a route handler. -/
def customRoute (age : MqttAgent α υ ι)
    (onRoute : SessionAgent α υ → GoString → List UInt8 →
      Except PanicValue (Bool × Result ι × Option GoString))
    (topic : GoString) (msg : List UInt8) : Prog AgentState Unit := do
  let (needreturn, result, err) ← .lift (onRoute age.session topic msg)
  if needreturn then age.toResult topic result (err.getD []) else pure ()

/-- `*pack.GetVariable().(*mqtt.Publish).GetTopic()` and the message. -/
def publish (pack : Pack) : Except PanicValue (GoString × List UInt8) :=
  match pack.variable_ with
  | .publish pub =>
    match pub.topicName with
    | some topic => .ok (topic, pub.msg)
    | none => .error .nilDereference
  | _ => .error (.error "interface conversion: the variable is not *mqtt.Publish")

/-- The body of `recoverworker`: only a PUBLISH is routed. -/
def recoverworkerBody (age : MqttAgent α υ ι) (pack : Pack) : Prog AgentState Unit :=
  if pack.msgType = Mqtt.PUBLISH then do
    .modify fun s => { s with revNum := s.revNum + 1 }
    let (topic, msg) ← .lift (publish pack)
    match age.routeHandler with
    | some onRoute => age.customRoute onRoute topic msg
    | none => age.defaultRoute topic msg
  else pure ()

/-- The deferred function of `recoverworker`, up to `recover`. -/
def workerDeferred (age : MqttAgent α υ ι) : Prog AgentState Unit := fun s =>
  if s.lastStorageHeartbeatDataTime + age.heartbeat < age.now then
    match age.storageHeartbeat with
    | none => finish s
    | some heartbeat =>
      (do
        .lift (heartbeat age.session)
        finish : Prog AgentState Unit) { s with lastStorageHeartbeatDataTime := age.now }
  else finish s

/-- `recoverworker`. -/
def recoverworker (age : MqttAgent α υ ι) (pack : Pack) : Prog AgentState Unit :=
  .deferRecover age.panicNil () (age.recoverworkerBody pack) fun _ => age.workerDeferred

/-- `OnRecover`, and the worker that it may start. -/
def onRecover (age : MqttAgent α υ ι) (pack : Pack) : Prog AgentState Unit := do
  match ← age.wait with
  | some err => do
    let (topic, _) ← .lift (publish pack)
    age.toResult topic .nil (goString err)
  | none => age.recoverworker pack

end MqttAgent

end Vmqant.BaseGate
