import Vmqant.Common.HealthAgent
import Vmqant.Registry.TagSafety

/-!
# The Consul registry

Reference: `registry/consul_registry.go`, lines 31-42 and 120-257.

One caller registers and deregisters services at the agent, whose requests may fail before or after they
have been served; between two of them anything may happen to the services. `Register` keeps a hash for each
name, and passes the check of the node when it meets the hash again. Durations are in nanoseconds.
-/

namespace Vmqant.Registry.Consul

open HealthAgent (Status Check Entry)

/-- `consul.AgentServiceCheck`. -/
structure AgentServiceCheck where
  /-- The address of a TCP check and its interval, or a TTL. -/
  kind : (String × ℤ) ⊕ ℤ
  deregisterCriticalServiceAfter : ℤ
deriving DecidableEq

/-- `consul.AgentServiceRegistration`. -/
structure AgentServiceRegistration where
  id : String
  name : String
  tags : List Tag
  port : ℤ
  address : String
  check : Option AgentServiceCheck
  native : Bool
deriving DecidableEq

/-- A `consulRegistry`, but for its map, with the packages that it uses. A service is what `GetService`
gives; its hash is that of `hashstructure`. -/
structure Config (η : Type) where
  tags : TagCodec
  hash : VersionedService → Except String η
  /-- The interval of the option `consul_tcp_check`. -/
  tcpCheck : Option ℤ
  connect : Bool

def second : ℤ := 1000000000

def minute : ℤ := 60 * second

def getDeregisterTTL (t : ℤ) : ℤ :=
  -- splay slightly for the watcher?
  let splay := second * 5
  -- consul has a minimum timeout on deregistration of 1 minute.
  if t < minute then minute + splay else t + splay

/-- A call of the caller. -/
inductive Call where
  | register (s : VersionedService) (ttl : ℤ)
  | deregister (s : VersionedService)

/-- The request that a call waits for. -/
inductive Pc where
  | idle
  /-- The check of the node of a service that is already registered. -/
  | check (s : VersionedService) (node : Node) (ttl : ℤ)
  | put (s : VersionedService) (node : Node) (ttl : ℤ)
  | pass (s : VersionedService) (node : Node) (ttl : ℤ)
  | remove (s : VersionedService) (node : Node)

/-- How a request ends: it is served, or it fails and may have been served all the same. -/
inductive Reply where
  | ok
  | error (text : String) (served : Bool)

structure State (η : Type) where
  register : String → Option η
  agent : HealthAgent String AgentServiceRegistration
  pc : Pc
  /-- What the last step has returned. -/
  returned : Option (Call × Option String)

inductive Act where
  | call (c : Call)
  /-- The end of a request. The order in which `Register` goes through the metadata, and the status that the
  agent gives a check, are `md` and `status`. -/
  | reply (r : Reply) (md : AList fun _ : String => String) (status : Status)
  | event (e : HealthAgent.Event String AgentServiceRegistration)

variable {η : Type} (cfg : Config η)

/-- The check that `Register` asks for. -/
def serviceCheck (node : Node) (ttl : ℤ) : Option AgentServiceCheck :=
  match cfg.tcpCheck with
  | some interval => some ⟨.inl (s!"{node.address}:{node.port}", interval), getDeregisterTTL interval⟩
  | none => if ttl > 0 then some ⟨.inr ttl, getDeregisterTTL ttl⟩ else none

def registration (s : VersionedService) (node : Node) (ttl : ℤ) (md : AList fun _ : String => String) :
    AgentServiceRegistration where
  id := node.id
  name := s.name
  tags := registerTags cfg.tags md s.endpoints s.version
  port := node.port
  address := node.address
  check := serviceCheck cfg node ttl
  native := cfg.connect

/-- The agent after it has served a registration. -/
def serve (agent : HealthAgent String AgentServiceRegistration) (asr : AgentServiceRegistration)
    (status : Status) : HealthAgent String AgentServiceRegistration :=
  agent.register asr.id asr (asr.check.map fun check => ⟨check.kind.isRight, status⟩)

def State.ret (st : State η) (c : Call) (err : Option String) : State η :=
  { st with pc := .idle, returned := some (c, err) }

def State.goto (st : State η) (pc : Pc) : State η := { st with pc, returned := none }

/-- A call up to its first request. -/
def beginCall [DecidableEq η] (st : State η) (c : Call) : State η :=
  match c with
  | .register s ttl =>
    match s.nodes with
    | [] => st.ret c (some "Require at least one node")
    | node :: _ =>
      match cfg.hash s with
      | .error err => st.ret c (some err)
      | .ok h => if st.register s.name = some h then st.goto (.check s node ttl) else st.goto (.put s node ttl)
  | .deregister s =>
    match s.nodes with
    | [] => st.ret c (some "Require at least one node")
    | node :: _ =>
      { st with register := Function.update st.register s.name none }.goto (.remove s node)

/-- `PassTTL`: the agent afterwards, and the error. -/
def passTTL (agent : HealthAgent String AgentServiceRegistration) (id : String) :
    Reply → Option (HealthAgent String AgentServiceRegistration × Option String)
  | .ok => (agent.pass? id).map fun agent => (agent, none)
  | .error text served => some (if served then (agent.pass? id).getD agent else agent, some text)

/-- A call from the end of a request to the next one. -/
def onReply (st : State η) (r : Reply) (md : AList fun _ : String => String) (status : Status) :
    Option (State η) :=
  match st.pc with
  | .idle => none
  | .check s node ttl => do
    let (agent, err) ← passTTL st.agent node.id r
    match err with
    | none => some ({ st with agent }.ret (.register s ttl) none)
    -- we don't know what the state is, so full re-register
    | some _ => some ({ st with agent }.goto (.put s node ttl))
  | .put s node ttl =>
    if md.toFinmap ≠ node.metadata then none
    else
      let agent := serve st.agent (registration cfg s node ttl md) status
      match r with
      | .error text served =>
        some ({ st with agent := if served then agent else st.agent }.ret (.register s ttl) (some text))
      | .ok =>
        let st := { st with agent, register := Function.update st.register s.name (cfg.hash s).toOption }
        -- if the TTL is 0 we don't mess with the checks
        if ttl = 0 then some (st.ret (.register s ttl) none) else some (st.goto (.pass s node ttl))
  | .pass s node ttl => do
    let (agent, err) ← passTTL st.agent node.id r
    some ({ st with agent }.ret (.register s ttl) err)
  | .remove s node =>
    match r with
    | .error text served =>
      some ({ st with agent := if served then st.agent.deregister node.id else st.agent }.ret
        (.deregister s) (some text))
    | .ok => some ({ st with agent := st.agent.deregister node.id }.ret (.deregister s) none)

def step [DecidableEq η] (st : State η) : Act → Option (State η)
  | .call c =>
    match st.pc with
    | .idle => some (beginCall cfg st c)
    | _ => none
  | .reply r md status => onReply cfg st r md status
  | .event e => some { st with agent := st.agent.onEvent e, returned := none }

/-- Nothing is registered. -/
def State.init : State η := ⟨fun _ => none, fun _ => none, .idle, none⟩

end Vmqant.Registry.Consul
