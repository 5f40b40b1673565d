import Vmqant.Common.Lts
import Vmqant.Gate.Session

/-!
# The gate handler

Reference: `gate/base/gate_handler.go`, lines 29-95, 140-173 and 198-275; `gate/define.go`, lines
132-153.

Agents are pointers: the handler keeps references `ρ`, and a method that changes the session of an
agent changes it for all who hold the agent, so the sessions live in `agents`. The storage handler is
an implementation of an interface that the gate is configured with, with a state of its own. The
session learner, which is told of connections, is left out.
-/

namespace Vmqant.BaseGate

open Lts

/-- `StorageHandler`: `query` gives the data that is stored for a user, `nil` when there is none, or an
error; `storage` an error or `nil`. -/
structure StorageHandler (σ : Type) where
  query : σ → String → Except String (Option (List UInt8))
  storage : σ → SessionImp → Option String × σ

/-- What the handler asks the gate for. -/
structure Gate (σ : Type) where
  storageHandler : Option (StorageHandler σ)
  /-- `proto.Unmarshal`, which `NewSession` calls. -/
  unmarshal : List UInt8 → Except String SessionImp

structure Agent where
  session : Option SessionImp
  protocolOK : Bool

structure Handler (ρ σ : Type) where
  agents : ρ → Agent
  /-- The state of the storage handler. -/
  store : σ
  sessions : AList fun _ : String => ρ
  agentNum : ℤ

/-- The results of a method. -/
structure Reply where
  result : Option SessionImp
  err : String

/-- The calls that reach the handler. -/
inductive Op (ρ : Type) where
  | connect (a : ρ)
  | disConnect (a : ρ)
  | bind (sessionid userid : String)
  | unBind (sessionid : String)
  | push (sessionid : String) (settings : Settings)
  | set (sessionid key value : String)
  | remove (sessionid key : String)

variable {ρ σ : Type}

namespace Gate

/-- `Query` and then `NewSession`: the session that was stored for a user. -/
def stored (g : Gate σ) (store : σ) (userid : String) : Option SessionImp :=
  match g.storageHandler with
  | none => none
  | some h =>
    match h.query store userid with
    | .error _ => none
    | .ok none => none
    | .ok (some data) =>
      match SessionImp.newSession g.unmarshal data with
      | .error _ => none
      | .ok impSession => some impSession

/-- The storage handler stores a session that is bound to a user. Its error is logged only. -/
def save (g : Gate σ) (store : σ) (s : SessionImp) : σ :=
  match g.storageHandler with
  | none => store
  | some h => if s.userId ≠ "" then (h.storage store s).2 else store

end Gate

namespace Handler

/-- `NewGateHandler`. -/
def newGateHandler (agents : ρ → Agent) (store : σ) : Handler ρ σ where
  agents := agents
  store := store
  sessions := ∅
  agentNum := 0

/-- `Connect`. -/
def connect (c : Handler ρ σ) (a : ρ) : Handler ρ σ :=
  match (c.agents a).session with
  | none => c
  | some s =>
    { c with
      sessions := c.sessions.insert s.sessionId a
      agentNum := if (c.agents a).protocolOK then c.agentNum + 1 else c.agentNum }

/-- `DisConnect`. -/
def disConnect (c : Handler ρ σ) (a : ρ) : Handler ρ σ :=
  match (c.agents a).session with
  | none => c
  | some s =>
    { c with
      sessions := c.sessions.erase s.sessionId
      agentNum := if (c.agents a).protocolOK then c.agentNum - 1 else c.agentNum }

variable [DecidableEq ρ]

/-- What `Bind`, `UnBind`, `Push`, `Set` and `Remove` have in common: the agent with the session id is
loaded, `body` changes its session and then the store. `none` is a panic. -/
def onSession (c : Handler ρ σ) (sessionid : String) (body : SessionImp → Option SessionImp)
    (save : σ → SessionImp → σ) : Option (Reply × Handler ρ σ) :=
  match c.sessions.lookup sessionid with
  | none => some (⟨none, "No Sesssion found"⟩, c)
  | some a =>
    (c.agents a).session.bind fun s =>
    (body s).map fun s' =>
      (⟨some s', ""⟩,
       { c with
         agents := Function.update c.agents a { c.agents a with session := some s' }
         store := save c.store s' })

/-- The session is connected and the body does not panic. -/
theorem onSession_eq {c : Handler ρ σ} {sessionid : String} {a : ρ} {s s' : SessionImp}
    {body : SessionImp → Option SessionImp} (ha : c.sessions.lookup sessionid = some a)
    (hs : (c.agents a).session = some s) (hbody : body s = some s') (save : σ → SessionImp → σ) :
    c.onSession sessionid body save = some (⟨some s', ""⟩,
      { c with
        agents := Function.update c.agents a { c.agents a with session := some s' }
        store := save c.store s' }) := by
  unfold onSession
  rw [ha]
  dsimp only
  rw [hs, Option.bind_some, hbody, Option.map_some]

/-- `Bind`. The empty user id is not looked up, and the branch for an agent whose session is gone after
`SetUserID` cannot be taken. -/
def bind (g : Gate σ) (c : Handler ρ σ) (sessionid userid : String) : Option (Reply × Handler ρ σ) :=
  c.onSession sessionid
    (fun s =>
      let s := s.setUserID userid
      if s.userId ≠ "" then
        match g.stored c.store userid with
        | none => some s
        | some impSession => some (s.importSettings impSession.cloneSettings)
      else some s)
    g.save

/-- `UnBind`, which stores nothing. -/
def unBind (c : Handler ρ σ) (sessionid : String) : Option (Reply × Handler ρ σ) :=
  c.onSession sessionid (fun s => some (s.setUserID "")) fun store _ => store

/-- `Push`. -/
def push (g : Gate σ) (c : Handler ρ σ) (sessionid : String) (settings : Settings) :
    Option (Reply × Handler ρ σ) :=
  c.onSession sessionid (fun s => s.setAll settings) g.save

/-- `Set`. -/
def set (g : Gate σ) (c : Handler ρ σ) (sessionid key value : String) :
    Option (Reply × Handler ρ σ) :=
  c.onSession sessionid (fun s => s.setLocalKV key value) g.save

/-- `Remove`. -/
def remove (g : Gate σ) (c : Handler ρ σ) (sessionid key : String) : Option (Reply × Handler ρ σ) :=
  c.onSession sessionid (fun s => some (s.removeLocalKV key)) g.save

/-- One call; `Connect` and `DisConnect` have no results. -/
def call (g : Gate σ) (c : Handler ρ σ) : Op ρ → Option (Option Reply × Handler ρ σ)
  | .connect a => some (none, c.connect a)
  | .disConnect a => some (none, c.disConnect a)
  | .bind sessionid userid => (bind g c sessionid userid).map fun (reply, c') => (some reply, c')
  | .unBind sessionid => (c.unBind sessionid).map fun (reply, c') => (some reply, c')
  | .push sessionid settings => (push g c sessionid settings).map fun (reply, c') => (some reply, c')
  | .set sessionid key value => (set g c sessionid key value).map fun (reply, c') => (some reply, c')
  | .remove sessionid key => (remove g c sessionid key).map fun (reply, c') => (some reply, c')

/-- The handler after a call. -/
def step (g : Gate σ) (c : Handler ρ σ) (op : Op ρ) : Option (Handler ρ σ) :=
  (c.call g op).map Prod.snd

end Handler

end Vmqant.BaseGate
