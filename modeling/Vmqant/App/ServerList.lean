import Vmqant.Common.Lts

/-!
# The server sessions of an application

Reference: `app/app.go`, lines 306-313 and 363-413; `module/base/ServerSession.go`, lines 27-39;
`rpc/base/rpc_client.go`, lines 34-52.

A lookup asks the selector for nodes and gets a session for each of them: it loads the session from
`serverList`, and if there is none it makes one, which starts a NATS client, and stores it. `Watcher` is
told that a node is gone: it loads the session, calls `Done` and deletes the entry. `Load`, `Store` and
`Delete` are steps of their own, and there is no lock around them.

`GetServerBySelector` is a lookup of one node, `GetServersByType` of the nodes of all services. What the
selector answers is in the action that begins the lookup. Sessions are numbered as they are made, and
nodes are given by their ids. That `NewServerSession` fails is in the actions, too.
-/

namespace Vmqant.App

/-- Where a lookup is. It has the sessions `got`, and `rest` is still to be visited. -/
inductive LookupPc where
  | idle
  | visiting (rest : List String) (got : List ℕ)
  /-- There is no session for `node` in `serverList`. -/
  | missed (node : String) (rest : List String) (got : List ℕ)
  /-- `NewServerSession` has returned `session`. -/
  | made (session : ℕ) (rest : List String) (got : List ℕ)
  | returned (got : List ℕ)

/-- Where a call of `Watcher` is. -/
inductive WatchPc where
  | idle
  | loaded (node : String) (session : ℕ)
  /-- `Done` has returned. -/
  | closed (node : String) (session : ℕ)
  | returned

structure State (κ ω : Type) where
  serverList : String → Option ℕ
  /-- How many sessions were made. -/
  sessions : ℕ
  /-- The node of a session. -/
  node : ℕ → String
  /-- `Done` was called. -/
  closed : ℕ → Bool
  lookup : κ → LookupPc
  watch : ω → WatchPc
  /-- For each lookup the nodes that `Watcher` was called for since the lookup began. -/
  stale : κ → String → Bool
  /-- `Watcher` was called for the node of the session since the lookup that made it began. -/
  watched : ℕ → Bool

inductive LookupAct where
  | getServerBySelector (node : String)
  | getServersByType (nodes : List String)
  /-- The next node is loaded, or there is none and the lookup returns. -/
  | load
  | newServerSession (ok : Bool)
  | store

inductive WatchAct where
  | load (node : String)
  | done
  | delete

inductive Act (κ ω : Type) where
  | lookup (k : κ) (a : LookupAct)
  | watch (w : ω) (a : WatchAct)

variable {κ ω : Type}

namespace State

def init : State κ ω where
  serverList := fun _ => none
  sessions := 0
  node := fun _ => ""
  closed := fun _ => false
  lookup := fun _ => .idle
  watch := fun _ => .idle
  stale := fun _ _ => false
  watched := fun _ => false

/-- A session that exists, with its NATS client, and was not closed. -/
def Open (s : State κ ω) (x : ℕ) : Prop := x < s.sessions ∧ s.closed x = false

def setLookup [DecidableEq κ] (s : State κ ω) (k : κ) (pc : LookupPc) : State κ ω :=
  { s with lookup := Function.update s.lookup k pc }

def setWatch [DecidableEq ω] (s : State κ ω) (w : ω) (pc : WatchPc) : State κ ω :=
  { s with watch := Function.update s.watch w pc }

/-- The lookup begins. -/
def begin [DecidableEq κ] (s : State κ ω) (k : κ) (nodes : List String) : State κ ω :=
  { s.setLookup k (.visiting nodes []) with stale := Function.update s.stale k fun _ => false }

/-- The lookup `k` makes a session for `n`. -/
def newSession (s : State κ ω) (k : κ) (n : String) : State κ ω :=
  { s with
    sessions := s.sessions + 1
    node := Function.update s.node s.sessions n
    closed := Function.update s.closed s.sessions false
    watched := Function.update s.watched s.sessions (s.stale k n) }

/-- `Watcher` is called for `n`. -/
def announce (s : State κ ω) (n : String) : State κ ω :=
  { s with
    stale := fun k m => s.stale k m || m = n
    watched := fun x => s.watched x || s.node x = n }

end State

variable [DecidableEq κ] [DecidableEq ω]

/-- `GetServerBySelector` and `GetServersByType`. After an error of `NewServerSession` the node is left
out, and `GetServerBySelector`, which has no other one, returns nothing. -/
def lookupStep (s : State κ ω) (k : κ) : LookupPc → LookupAct → Option (State κ ω)
  | .idle, .getServerBySelector n => some (s.begin k [n])
  | .idle, .getServersByType nodes => some (s.begin k nodes)
  | .visiting [] got, .load => some (s.setLookup k (.returned got))
  | .visiting (n :: rest) got, .load =>
    match s.serverList n with
    | none => some (s.setLookup k (.missed n rest got))
    | some x => some (s.setLookup k (.visiting rest (got ++ [x])))
  | .missed n rest got, .newServerSession true =>
    some ((s.newSession k n).setLookup k (.made s.sessions rest got))
  | .missed _ rest got, .newServerSession false => some (s.setLookup k (.visiting rest got))
  | .made x rest got, .store =>
    some { s.setLookup k (.visiting rest (got ++ [x])) with
      serverList := Function.update s.serverList (s.node x) (some x) }
  | _, _ => none

/-- `Watcher`. -/
def watchStep (s : State κ ω) (w : ω) : WatchPc → WatchAct → Option (State κ ω)
  | .idle, .load n =>
    match s.serverList n with
    | none => some ((s.announce n).setWatch w .returned)
    | some x => some ((s.announce n).setWatch w (.loaded n x))
  | .loaded n x, .done =>
    some { s.setWatch w (.closed n x) with closed := Function.update s.closed x true }
  | .closed n _, .delete =>
    some { s.setWatch w .returned with serverList := Function.update s.serverList n none }
  | _, _ => none

/-- One step of a lookup or of a call of `Watcher`. -/
def step (s : State κ ω) : Act κ ω → Option (State κ ω)
  | .lookup k a => lookupStep s k (s.lookup k) a
  | .watch w a => watchStep s w (s.watch w) a

end Vmqant.App
