import Vmqant.Common.Lts
import Vmqant.Common.Script
import Vmqant.Gate.MqttAgent

/-!
# The URI route

Reference: `gate/uriroute/uri_route.go`, lines 64-186; `rpc/base/rpc_client.go`, lines 152-205;
`gate/base/mqtt_agent.go`, lines 263-278.

`OnRoute` routes a PUBLISH by its topic, which is a URI. The workers of a connection run it concurrently, and
all of them are given the session of the connection. Each call that it makes is a step: those on the session
act on the state, the others return whatever the action says. Parsing is a parameter.
-/

namespace Vmqant.BaseGate

open Mqtt (GoString)
open Lts

/-- A parsed `url.URL`. -/
structure Url where
  scheme : GoString
  hostname : GoString
  path : GoString
  rawQuery : GoString

/-- `URIRoute`, and what it uses of the libraries; `proto` is the protocol of the sessions. -/
structure URIRoute where
  proto : Proto
  /-- `url.Parse`. -/
  parse : GoString → Except GoString Url
  /-- `url.ParseQuery`, of which only the keys count. -/
  parseQuery : GoString → Except GoString (List GoString)
  /-- `json.Unmarshal` into an `interface`. -/
  unmarshal : List UInt8 → Except GoString Unit
  /-- `Selector` is set, and `DataParsing`. -/
  selector : Bool
  dataParsing : Bool

/-- What `OnRoute` calls. The sessions are `SessionAgent α υ`, the servers `σ`, the beans `β` and the results
`Result ι`. -/
inductive RouteCall (α υ σ β : Type) where
  /-- `SetTopic` of the session of the connection. -/
  | setTopic (topic : GoString)
  | selector (topic : GoString) (u : Url)
  | getRouteServer (moduleType : GoString)
  | dataParsing (topic : GoString) (u : Url) (msg : List UInt8)
  /-- `ArgsTypeAnd2Bytes` of the session of the connection, in `Call` and `CallNR`. -/
  | sessionBytes
  /-- `ArgsTypeAnd2Bytes` of a bean. -/
  | beanBytes (bean : β)
  /-- `Clone` of the session of the connection, and the id that it takes. -/
  | generateID
  | clone (spanId : String)
  /-- `Serializable` of a clone. -/
  | serializable (s : SessionAgent α υ)
  | callArgs (server : σ) (fn : GoString) (argsType : List String) (args : List (List UInt8))
  | callNRArgs (server : σ) (fn : GoString) (argsType : List String) (args : List (List UInt8))

/-- What the calls return. -/
abbrev RouteCall.Returns {α υ σ β : Type} (ι : Type) : RouteCall α υ σ β → Type
  | .setTopic _ => Unit
  | .selector _ _ => Except GoString σ
  | .getRouteServer _ => Option σ
  | .dataParsing _ _ _ => Except GoString (Option β)
  | .sessionBytes => Except String (List UInt8)
  | .beanBytes _ => Except GoString (String × List UInt8)
  | .generateID => String
  | .clone _ => SessionAgent α υ
  | .serializable _ => Except String (List UInt8)
  | .callArgs _ _ _ _ => Result ι × GoString
  | .callNRArgs _ _ _ _ => Option GoString

namespace URIRoute

variable {α υ ι σ β : Type}

/-- A part of `OnRoute`. -/
abbrev Route (α υ ι σ β : Type) := Script (RouteCall α υ σ β) (RouteCall.Returns ι)

def perform (k : RouteCall α υ σ β) : Route α υ ι σ β (k.Returns ι) := Script.perform k

/-- `ArgsTypeAnd2Bytes` of the session and the bean, as `Call` and `CallNR` do it. -/
def params (bean : β) : Route α υ ι σ β (Except GoString (List String × List (List UInt8))) := do
  match ← perform .sessionBytes with
  | .error err => pure (.error (goString s!"args[0] error {err}"))
  | .ok b =>
    match ← perform (.beanBytes bean) with
    | .error err => pure (.error (goString "args[1] error " ++ err))
    | .ok (ptype, b') => pure (.ok ([Transport.rpcParamSessionType, ptype], [b, b']))

/-- `Call` of a server with the session and a bean. -/
def call (server : σ) (fn : GoString) (bean : β) : Route α υ ι σ β (Result ι × GoString) := do
  match ← params bean with
  | .error err => pure (.nil, err)
  | .ok (argsType, args) => perform (.callArgs server fn argsType args)

def callNR (server : σ) (fn : GoString) (bean : β) : Route α υ ι σ β (Option GoString) := do
  match ← params bean with
  | .error err => pure (some err)
  | .ok (argsType, args) => perform (.callNRArgs server fn argsType args)

/-- What `OnRoute` returns for the result and the error text of a call. -/
def returned (needreturn : Bool) (r : Result ι × GoString) : Bool × Result ι × Option GoString :=
  (needreturn, r.1, if r.2 ≠ [] then some r.2 else none)

/-- The server that the topic selects, or the error that `OnRoute` returns. -/
def selectServer (u : URIRoute) (topic : GoString) (uu : Url) : Route α υ ι σ β (Except GoString σ) :=
  if u.selector then perform (.selector topic uu)
  else do
    let moduleType :=
      if uu.hostname = goString "modulus" ∨ uu.hostname = goString "cache" ∨
          uu.hostname = goString "random" then uu.scheme
      else uu.scheme ++ goString "@" ++ uu.hostname
    match ← perform (.getRouteServer moduleType) with
    | none => pure (.error (goString "Service(type:" ++ moduleType ++ goString ") not found"))
    | some server => pure (.ok server)

/-- The bean that `DataParsing` gives, if it gives one. -/
def bean (u : URIRoute) (topic : GoString) (uu : Url) (msg : List UInt8) : Route α υ ι σ β (Option β) :=
  if u.dataParsing then do
    match ← perform (.dataParsing topic uu msg) with
    | .ok bean => pure bean
    | .error _ => pure none
  else pure none

/-- The call with a bean, which is given the session of the connection. -/
def beanCall (needreturn : Bool) (server : σ) (fn : GoString) (bean : β) :
    Route α υ ι σ β (Bool × Result ι × Option GoString) := do
  if needreturn then
    let r ← call server fn bean
    pure (returned needreturn r)
  else
    let e ← callNR server fn bean
    pure (needreturn, .nil, e)

/-- The call without a bean, which is given a clone of the session. -/
def argsCall (u : URIRoute) (needreturn : Bool) (server : σ) (fn topic : GoString) (msg : List UInt8) :
    Route α υ ι σ β (Bool × Result ι × Option GoString) := do
  match (if MqttAgent.isObject msg then u.unmarshal msg else .ok ()) with
  | .error err => pure (needreturn, .nil, some (goString "The JSON format is incorrect " ++ err))
  | .ok () =>
    let argsType := [Transport.rpcParamSessionType, if MqttAgent.isObject msg then "map" else "bytes"]
    let id ← perform .generateID
    let s ← perform (.clone id)
    match ← perform (.serializable (s.setTopic topic)) with
    | .error err => pure (needreturn, .nil, some (goString err))
    | .ok b =>
      if needreturn then
        let r ← perform (.callArgs server fn argsType [b, msg])
        pure (returned needreturn r)
      else
        let e ← perform (.callNRArgs server fn argsType [b, msg])
        pure (needreturn, .nil, e)

/-- `OnRoute`. -/
def onRoute (u : URIRoute) (topic : GoString) (msg : List UInt8) :
    Route α υ ι σ β (Bool × Result ι × Option GoString) :=
  match u.parse topic with
  | .error err => pure (true, .nil, some (goString "topic is not uri " ++ err))
  | .ok uu =>
    match u.parseQuery uu.rawQuery with
    | .error err => pure (true, .nil, some (goString "parse query error " ++ err))
    | .ok m => do
      let needreturn := m.contains (goString "msg_id")
      perform (.setTopic topic)
      match ← u.selectServer topic uu with
      | .error err => pure (needreturn, .nil, some err)
      | .ok server =>
        match ← u.bean topic uu msg with
        | some bean => beanCall needreturn server uu.path bean
        | none => u.argsCall needreturn server uu.path topic msg

/-! ## The requests of a connection -/

/-- A PUBLISH that is routed. -/
structure Request where
  topic : GoString
  msg : List UInt8

/-- Where a request is. -/
inductive RequestPc (α υ ι σ β : Type) where
  | idle
  | running (rest : Route α υ ι σ β (Bool × Result ι × Option GoString))
  | ended

structure State (α υ ι σ β κ : Type) where
  /-- The session of the connection. -/
  session : SessionAgent α υ
  pc : κ → RequestPc α υ ι σ β
  /-- The request whose `SetTopic` was the last one. -/
  setter : Option κ
  /-- The sessions that were serialized for the calls of the requests. -/
  serialized : List (κ × SessionImp)

inductive Act (α υ ι σ β κ : Type) where
  | start (k : κ)
  /-- The next step of a request; `returns` is what a call returns that is not one of the session. -/
  | next (k : κ) (returns : ∀ c : RouteCall α υ σ β, c.Returns ι)

variable {κ : Type}

namespace State

def init (session : SessionAgent α υ) : State α υ ι σ β κ where
  session := session
  pc := fun _ => .idle
  setter := none
  serialized := []

variable [DecidableEq κ]

def setPc (s : State α υ ι σ β κ) (k : κ) (pc : RequestPc α υ ι σ β) : State α υ ι σ β κ :=
  { s with pc := Function.update s.pc k pc }

/-- A session is serialized for a request. -/
def addSerialized (s : State α υ ι σ β κ) (proto : Proto) (k : κ) (imp : SessionImp) :
    State α υ ι σ β κ :=
  match proto.marshal imp with
  | .ok _ => { s with serialized := s.serialized ++ [(k, imp)] }
  | .error _ => s

end State

variable [DecidableEq κ]

/-- What a call does, and what it returns. -/
def callStep (u : URIRoute) (s : State α υ ι σ β κ) (k : κ)
    (returns : ∀ c : RouteCall α υ σ β, c.Returns ι) :
    (c : RouteCall α υ σ β) → c.Returns ι × State α υ ι σ β κ
  | .setTopic topic => ((), { s with session := s.session.setTopic topic, setter := some k })
  | .sessionBytes =>
    (s.session.serializable u.proto, s.addSerialized u.proto k s.session.session)
  | .clone spanId => (s.session.clone spanId, s)
  | .serializable c => (c.serializable u.proto, s.addSerialized u.proto k c.session)
  | c => (returns c, s)

def step (u : URIRoute) (req : κ → Request) (s : State α υ ι σ β κ) :
    Act α υ ι σ β κ → Option (State α υ ι σ β κ)
  | .start k =>
    match s.pc k with
    | .idle => some (s.setPc k (.running (u.onRoute (req k).topic (req k).msg)))
    | _ => none
  | .next k returns =>
    match s.pc k with
    | .running (.ret _) => some (s.setPc k .ended)
    | .running (.call c next) =>
      let (r, s') := callStep u s k returns c
      some (s'.setPc k (.running (next r)))
    | .running (.panic _) => some (s.setPc k .ended)
    | _ => none

/-! ## What a step can do -/

section Inversion

variable {u : URIRoute} {req : κ → Request} {s s' : State α υ ι σ β κ}

/-- The calls that act on the session of the connection or serialize one. -/
def RouteCall.OnSession : RouteCall α υ σ β → Prop
  | .setTopic _ | .sessionBytes | .serializable _ => True
  | _ => False

/-- The steps of a request. -/
inductive RequestStep (u : URIRoute) (req : κ → Request) (s : State α υ ι σ β κ) (k : κ) :
    RequestPc α υ ι σ β → State α υ ι σ β κ → Prop where
  | start : RequestStep u req s k .idle
      (s.setPc k (.running (u.onRoute (req k).topic (req k).msg)))
  | ended {rest : Route α υ ι σ β (Bool × Result ι × Option GoString)}
      (hrest : ∀ c next, rest ≠ .call c next) :
      RequestStep u req s k (.running rest) (s.setPc k .ended)
  | setTopic (topic : GoString) (next : Unit → Route α υ ι σ β (Bool × Result ι × Option GoString)) :
      RequestStep u req s k (.running (.call (.setTopic topic) next))
        (State.setPc { s with session := s.session.setTopic topic, setter := some k } k
          (.running (next ())))
  | sessionBytes
      (next : Except String (List UInt8) → Route α υ ι σ β (Bool × Result ι × Option GoString)) :
      RequestStep u req s k (.running (.call .sessionBytes next))
        ((s.addSerialized u.proto k s.session.session).setPc k
          (.running (next (s.session.serializable u.proto))))
  | serializable (c : SessionAgent α υ)
      (next : Except String (List UInt8) → Route α υ ι σ β (Bool × Result ι × Option GoString)) :
      RequestStep u req s k (.running (.call (.serializable c) next))
        ((s.addSerialized u.proto k c.session).setPc k (.running (next (c.serializable u.proto))))
  | other (c : RouteCall α υ σ β) (hc : ¬ RouteCall.OnSession c)
      (next : c.Returns ι → Route α υ ι σ β (Bool × Result ι × Option GoString)) (r : c.Returns ι) :
      RequestStep u req s k (.running (.call c next)) (s.setPc k (.running (next r)))

/-- The request that takes a step. -/
def Act.request : Act α υ ι σ β κ → κ
  | .start k => k
  | .next k _ => k

theorem step_eq_some {a : Act α υ ι σ β κ} (h : step u req s a = some s') :
    RequestStep u req s a.request (s.pc a.request) s' := by
  cases a with
  | start k =>
    rw [step] at h
    split at h
    · next hpc =>
      obtain rfl := Option.some.inj h
      exact hpc ▸ .start
    · cases h
  | next k returns =>
    rw [step] at h
    split at h
    · next hpc =>
      obtain rfl := Option.some.inj h
      exact hpc ▸ .ended (by simp)
    · next c next hpc =>
      obtain rfl := Option.some.inj h
      change RequestStep u req s k (s.pc k) _
      rw [hpc]
      cases c with
      | setTopic topic => exact .setTopic topic next
      | sessionBytes => exact .sessionBytes next
      | serializable c => exact .serializable c next
      | selector topic uu => exact .other _ id next _
      | getRouteServer moduleType => exact .other _ id next _
      | dataParsing topic uu msg => exact .other _ id next _
      | beanBytes bean => exact .other _ id next _
      | generateID => exact .other _ id next _
      | clone spanId => exact .other _ id next _
      | callArgs server fn argsType args => exact .other _ id next _
      | callNRArgs server fn argsType args => exact .other _ id next _
    · next hpc =>
      obtain rfl := Option.some.inj h
      exact hpc ▸ .ended (by simp)
    · cases h

end Inversion

end URIRoute

end Vmqant.BaseGate
