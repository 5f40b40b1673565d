import Vmqant.Common.Lts
import Vmqant.Registry.Service

/-!
# The service and its registration

Reference: `service/service.go`, lines 30-150; `server/rpc_server.go`, lines 84-245;
`utils/lib/addr/addr.go`, lines 31-72.

`Run` starts the server, which registers its node, and a goroutine registers the node again at every
tick. When the context is done, `Run` closes the channel `exit` and stops the server, which deregisters
the node. It does not wait for the goroutine.

A registry keeps nodes by their ids, and `Register` and `Deregister` are one step each. What fails is in
the actions: the hooks of the service, the calls of the registry, and the search of the interfaces for an
address. The texts of the errors are left out, and `Server.Start` and `Server.Stop`, which do not fail.
-/

namespace Vmqant.Service

open Lts Registry

/-! ## The node of a server -/

/-- What a server is configured with. -/
structure Options where
  name : String
  id : String
  advertise : String := ""
  address : String := ""
  metadata : Metadata := ∅
  /-- `Registry.String()`. -/
  registry : String := ""

/-- `strconv.Atoi`, without its error: `0` for what is not a number, the nearest `int` for a number out
of range. -/
def atoi (s : String) : ℤ :=
  let digits (sign : ℤ) (cs : List Char) : ℤ :=
    if cs.isEmpty || !cs.all Char.isDigit then 0
    else max (-2 ^ 63) (min (2 ^ 63 - 1) (sign * cs.foldl (fun n c => 10 * n + (c.toNat - 48 : ℕ)) 0))
  match s.toList with
  | '-' :: cs => digits (-1) cs
  | '+' :: cs => digits 1 cs
  | cs => digits 1 cs

namespace Options

/-- The address that is advertised, or else the address of the server. -/
def advt (o : Options) : String := if o.advertise ≠ "" then o.advertise else o.address

def parts (o : Options) : List String := (o.advt.toList.splitOn ':').map String.ofList

def host (o : Options) : String :=
  if o.parts.length > 1 then ":".intercalate o.parts.dropLast else o.parts.headD ""

def port (o : Options) : ℤ :=
  if o.parts.length > 1 then atoi (o.parts.getLastD "") else 0

def nodeId (o : Options) : String := o.name ++ "@" ++ o.id

/-- The node that is registered. -/
def node (o : Options) (addr : String) : Node where
  id := o.nodeId
  address := addr
  port := o.port
  metadata := (o.metadata.insert "server" "rpc").insert "registry" o.registry

end Options

/-- `addr.Extract`. An address is looked for at the interfaces, with the result `iface`, if there is no
explicit one. -/
def extract (addr : String) (iface : Option String) : Option String :=
  if addr ≠ "" ∧ addr ≠ "0.0.0.0" ∧ addr ≠ "[::]" then some addr else iface

/-! ## The goroutines -/

/-- Where a call of `ServiceRegister` is. -/
inductive RegisterPc where
  | extract
  | read (node : Node)
  | register (node : Node) (registered : Bool)
  | mark
  | returned (ok : Bool)

/-- Where `Run` is. -/
inductive MainPc where
  | beforeStart
  | start (r : RegisterPc)
  | afterStart
  /-- At the `select`. -/
  | running
  | closing
  | beforeStop
  /-- In `ServiceDeregister`. -/
  | extract
  | deregister
  | unmark
  | afterStop
  | returned

/-- Where the goroutine of `run` is. -/
inductive LoopPc where
  | off
  | begin
  | select
  | register (r : RegisterPc)
  | finished

structure State where
  main : MainPc
  loop : LoopPc
  /-- The context is done. -/
  done : Bool
  /-- The channel `ex` is closed. -/
  exit : Bool
  /-- The field `registered` of the server. -/
  registered : Bool
  registry : String → Option Node

/-- `Run` is called. -/
def State.init (registered : Bool) (registry : String → Option Node) : State where
  main := .beforeStart
  loop := .off
  done := false
  exit := false
  registered := registered
  registry := registry

/-- The actions of `ServiceRegister`. -/
inductive RegisterAct where
  | extract (iface : Option String)
  | read
  | register (ok : Bool)
  | mark

inductive MainAct where
  /-- The hooks are called, and one of them fails or none. -/
  | hooks (ok : Bool)
  | register (a : RegisterAct)
  | done
  | close
  | extract (iface : Option String)
  | deregister (ok : Bool)
  | unmark

inductive LoopAct where
  | begin
  | tick
  | register (a : RegisterAct)
  | exit

inductive Act where
  | main (a : MainAct)
  | loop (a : LoopAct)
  /-- The context is cancelled. -/
  | cancel

/-- `ServiceRegister`. -/
def registerStep (o : Options) (s : State) : RegisterPc → RegisterAct → Option (RegisterPc × State)
  | .extract, .extract iface =>
    match extract o.host iface with
    | none => some (.returned false, s)
    | some addr => some (.read (o.node addr), s)
  | .read node, .read => some (.register node s.registered, s)
  | .register node registered, .register true =>
    some (if registered then .returned true else .mark,
      { s with registry := Function.update s.registry node.id (some node) })
  | .register _ _, .register false => some (.returned false, s)
  | .mark, .mark => some (.returned true, { s with registered := true })
  | _, _ => none

/-- `Run`, with `Start` and `Stop`. An error of the hooks of `Stop` does not keep it from going on. -/
def mainStep (o : Options) (s : State) : MainPc → MainAct → Option State
  | .beforeStart, .hooks ok => some { s with main := if ok then .start .extract else .returned }
  | .start r, .register a =>
    (registerStep o s r a).map fun (r', s') =>
      match r' with
      | .returned true => { s' with main := .afterStart }
      | .returned false => { s' with main := .returned }
      | r' => { s' with main := .start r' }
  | .afterStart, .hooks ok =>
    some (if ok then { s with main := .running, loop := .begin } else { s with main := .returned })
  | .running, .done => if s.done then some { s with main := .closing } else none
  | .closing, .close => some { s with main := .beforeStop, exit := true }
  | .beforeStop, .hooks _ => some { s with main := .extract }
  | .extract, .extract iface =>
    match extract o.host iface with
    | none => some { s with main := .returned }
    | some _ => some { s with main := .deregister }
  | .deregister, .deregister true =>
    some { s with main := .unmark, registry := Function.update s.registry o.nodeId none }
  | .deregister, .deregister false => some { s with main := .returned }
  | .unmark, .unmark => some { s with main := .afterStop, registered := false }
  | .afterStop, .hooks _ => some { s with main := .returned }
  | _, _ => none

/-- `run`. When there is a tick and `exit` is closed, `select` may take the tick. -/
def loopStep (o : Options) (interval : ℤ) (s : State) : LoopPc → LoopAct → Option State
  | .begin, .begin => some { s with loop := if interval ≤ 0 then .finished else .select }
  | .select, .tick => some { s with loop := .register .extract }
  | .select, .exit => if s.exit then some { s with loop := .finished } else none
  | .register r, .register a =>
    (registerStep o s r a).map fun (r', s') =>
      match r' with
      | .returned _ => { s' with loop := .select }
      | r' => { s' with loop := .register r' }
  | _, _ => none

/-- One step of the service with the options `o` and `RegisterInterval`. -/
def step (o : Options) (interval : ℤ) (s : State) : Act → Option State
  | .main a => mainStep o s s.main a
  | .loop a => loopStep o interval s s.loop a
  | .cancel => some { s with done := true }

/-- `Run` has returned, and its goroutine is finished. -/
def State.Finished (s : State) : Prop :=
  s.main = .returned ∧ (s.loop = .off ∨ s.loop = .finished)

end Vmqant.Service
