import Vmqant.Gate.Handler
import Vmqant.Gate.Mqtt.Pack

/-!
# The life of an agent

Reference: `gate/base/mqtt_agent.go`, lines 110-197; `network/tcp_server.go`, lines 94-105.

The server runs each connection in a goroutine of its own: `Run` and then `OnClose`. `Run` reads the login
pack, makes the session, acknowledges the login and tells the handler, and then listens until the
connection is lost. It may leave at each of these points, on an error or by a panic, which it recovers. There
is none between `age.protocol_ok = true` and `Connect`: only the getter of the learner is called there.
`DisConnect` cleans up in its deferred function, so that a panic of the session learner makes no difference.
Between these steps, other modules change the sessions that are connected.

The ids of the sessions come from `GenerateID`, which does not give an id twice.
-/

namespace Vmqant.BaseGate

open Lts Mqtt

/-- Where an agent is. -/
inductive RunPc where
  | idle
  /-- The login pack is read, and checked. -/
  | reading
  | checking (pack : Pack)
  | creating
  /-- `age.session` is set, and the trace is not. -/
  | created
  | acking
  /-- `age.protocol_ok` is set, and the handler is told next. -/
  | connecting
  /-- The handler was told, and the client is listened to. -/
  | listening
  /-- `Run` has returned, before `Connect` or after it. -/
  | failed
  | left
  /-- `OnClose` has returned. -/
  | closed

/-- `Connect` was executed, and `DisConnect` was not. -/
def RunPc.Connected : RunPc → Prop
  | .listening | .left => True
  | _ => False

inductive RunAct where
  /-- The connection is accepted. -/
  | accept
  /-- `ReadPack` returns a pack, or an error. -/
  | read (pack : Option Pack)
  | check
  /-- `NewSessionByMap`, with the new id and the address of the client. -/
  | newSession (sessionid network ip serverid : String)
  | createTrace (traceId spanId : String)
  /-- `WritePack` succeeds or not. -/
  | writePack (ok : Bool)
  | connect
  /-- `Listen_loop` returns. -/
  | lost
  /-- A panic is recovered by `Run`. -/
  | panic
  | onClose

inductive GateAct (ρ : Type) where
  | agent (a : ρ) (act : RunAct)
  /-- A call of another module. -/
  | call (op : Op ρ)

/-- The handler and the agents. -/
structure Agents (ρ σ : Type) where
  handler : Handler ρ σ
  pc : ρ → RunPc
  /-- The ids that `GenerateID` has given. -/
  used : List String

variable {ρ σ : Type}

namespace Agents

def init (store : σ) : Agents ρ σ where
  handler := .newGateHandler (fun _ => ⟨none, false⟩) store
  pc := fun _ => .idle
  used := []

variable [DecidableEq ρ]

def setPc (s : Agents ρ σ) (a : ρ) (pc : RunPc) : Agents ρ σ :=
  { s with pc := Function.update s.pc a pc }

def setAgent (s : Agents ρ σ) (a : ρ) (agent : Agent) : Agents ρ σ :=
  { s with handler := { s.handler with agents := Function.update s.handler.agents a agent } }

/-- The checks of the login pack. -/
def checked (pack : Pack) : RunPc :=
  if pack.msgType ≠ CONNECT then .failed
  else
    match pack.variable_ with
    | .connect _ => .creating
    | _ => .failed

/-- `Run` and `OnClose` of the agent `a`. -/
def runStep (s : Agents ρ σ) (a : ρ) : RunPc → RunAct → Option (Agents ρ σ)
  | .idle, .accept => some (s.setPc a .reading)
  | .reading, .read none => some (s.setPc a .failed)
  | .reading, .read (some pack) => some (s.setPc a (.checking pack))
  | .checking pack, .check => some (s.setPc a (checked pack))
  | .creating, .newSession sessionid network ip serverid =>
    if sessionid ∈ s.used then none
    else
      let session : SessionImp := .newSessionByMap
        { sessionid := some sessionid, network := some network, ip := some ip,
          serverid := some serverid, settings := some (some ∅) }
      some { (s.setAgent a { s.handler.agents a with session := some session }).setPc a .created with
        used := sessionid :: s.used }
  | .created, .createTrace traceId spanId =>
    let agent := s.handler.agents a
    some ((s.setAgent a { agent with
      session := agent.session.map fun session => { session with traceId := traceId, spanId := spanId } }).setPc
        a .acking)
  | .acking, .writePack false => some (s.setPc a .failed)
  | .acking, .writePack true =>
    some ((s.setAgent a { s.handler.agents a with protocolOK := true }).setPc a .connecting)
  | .connecting, .connect => some { s.setPc a .listening with handler := s.handler.connect a }
  | .listening, .lost => some (s.setPc a .left)
  | .reading, .panic | .checking _, .panic | .creating, .panic | .created, .panic | .acking, .panic =>
    some (s.setPc a .failed)
  | .listening, .panic => some (s.setPc a .left)
  | .failed, .onClose | .left, .onClose =>
    some { s.setPc a .closed with handler := s.handler.disConnect a }
  | _, _ => none

/-- One step; the calls of other modules are those on sessions. -/
def step (g : Gate σ) (s : Agents ρ σ) : GateAct ρ → Option (Agents ρ σ)
  | .agent a act => runStep s a (s.pc a) act
  | .call (.connect _) | .call (.disConnect _) => none
  | .call op => (s.handler.step g op).map fun c => { s with handler := c }

/-! ## What a step can do -/

variable {s s' : Agents ρ σ} {a : ρ}

/-- The steps of an agent. -/
inductive RunStep (s : Agents ρ σ) (a : ρ) : RunPc → Agents ρ σ → Prop where
  /-- Before the session is made. -/
  | login {pc pc' : RunPc} (hpc : pc = .idle ∨ pc = .reading ∨ ∃ pack, pc = .checking pack)
      (hpc' : pc' = .reading ∨ (∃ pack, pc' = .checking pack) ∨ pc' = .creating) :
      RunStep s a pc (s.setPc a pc')
  | newSession {session : SessionImp} (hfresh : session.sessionId ∉ s.used) :
      RunStep s a .creating
        { (s.setAgent a { s.handler.agents a with session := some session }).setPc a .created with
          used := session.sessionId :: s.used }
  | createTrace (traceId spanId : String) :
      RunStep s a .created
        ((s.setAgent a { s.handler.agents a with
          session := (s.handler.agents a).session.map fun session =>
            { session with traceId := traceId, spanId := spanId } }).setPc a .acking)
  | written :
      RunStep s a .acking
        ((s.setAgent a { s.handler.agents a with protocolOK := true }).setPc a .connecting)
  | connect : RunStep s a .connecting { s.setPc a .listening with handler := s.handler.connect a }
  | lost : RunStep s a .listening (s.setPc a .left)
  /-- `Run` leaves before `Connect`. -/
  | fail {pc : RunPc} (hpc : pc = .reading ∨ (∃ pack, pc = .checking pack) ∨ pc = .creating ∨
      pc = .created ∨ pc = .acking) : RunStep s a pc (s.setPc a .failed)
  | onClose {pc : RunPc} (hpc : pc = .failed ∨ pc = .left) :
      RunStep s a pc { s.setPc a .closed with handler := s.handler.disConnect a }

theorem runStep_eq_some {pc : RunPc} {act : RunAct} (h : runStep s a pc act = some s') :
    RunStep s a pc s' := by
  unfold runStep at h
  split at h
  · obtain rfl := Option.some.inj h
    exact .login (.inl rfl) (.inl rfl)
  · obtain rfl := Option.some.inj h
    exact .fail (.inl rfl)
  · obtain rfl := Option.some.inj h
    exact .login (.inr (.inl rfl)) (.inr (.inl ⟨_, rfl⟩))
  · next pack =>
    obtain rfl := Option.some.inj h
    unfold checked
    split
    · exact .fail (.inr (.inl ⟨pack, rfl⟩))
    · split
      · exact .login (.inr (.inr ⟨pack, rfl⟩)) (.inr (.inr rfl))
      · exact .fail (.inr (.inl ⟨pack, rfl⟩))
  · split at h
    · cases h
    · next hfresh =>
      obtain rfl := Option.some.inj h
      exact .newSession hfresh
  · obtain rfl := Option.some.inj h
    exact .createTrace _ _
  · obtain rfl := Option.some.inj h
    exact .fail (.inr (.inr (.inr (.inr rfl))))
  · obtain rfl := Option.some.inj h
    exact .written
  · obtain rfl := Option.some.inj h
    exact .connect
  · obtain rfl := Option.some.inj h
    exact .lost
  · obtain rfl := Option.some.inj h
    exact .fail (.inl rfl)
  · next pack =>
    obtain rfl := Option.some.inj h
    exact .fail (.inr (.inl ⟨pack, rfl⟩))
  · obtain rfl := Option.some.inj h
    exact .fail (.inr (.inr (.inl rfl)))
  · obtain rfl := Option.some.inj h
    exact .fail (.inr (.inr (.inr (.inl rfl))))
  · obtain rfl := Option.some.inj h
    exact .fail (.inr (.inr (.inr (.inr rfl))))
  · obtain rfl := Option.some.inj h
    exact .lost
  · obtain rfl := Option.some.inj h
    exact .onClose (.inl rfl)
  · obtain rfl := Option.some.inj h
    exact .onClose (.inr rfl)
  · cases h

end Agents

end Vmqant.BaseGate
