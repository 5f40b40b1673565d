import Vmqant.Common.Chan
import Vmqant.Common.Lts
import Vmqant.Utils.SafeMap

/-!
# The NATS RPC client

Reference: `rpc/base/nats_client.go` and `rpc/base/rpc_client.go`, lines 44-125.

A transition system over the table of pending calls, the callback channels and the program counters
of four kinds of actors: any number of `CallArgs` invocations `κ`, the goroutine of
`on_request_handle`, any number of `Done` invocations `δ`, and the goroutine that waits for
`c.done`. Every operation on the table or on a channel is a step of its own. The actions carry what
the environment decides: which reply arrives, whether the publish fails, in which order `Done` goes
through the table.

`c.callinfos` is a pointer that `Done` sets to `nil`. A method call reads the pointer before it takes
the lock, so an actor that was about to use the table at that moment may still reach it, and one that
reads the pointer later dereferences `nil`: once `dropped` is set, both the operation and `panic` are
enabled.
-/

namespace Vmqant.Rpc

/-- `rpcpb.ResultInfo`. -/
structure ResultInfo where
  cid : String
  error : String
  resultType : String
  result : List UInt8
deriving DecidableEq

/-- An entry of the table. The channel is that of the `CallArgs` invocation that made it, so it is
never `nil`. -/
structure ClinetCallInfo (κ : Type) where
  correlationId : String
  call : κ
deriving DecidableEq

/-- A reply that has arrived, with its number: a reply that is delivered twice by the network arrives
as two of them. -/
structure Arrival where
  seq : ℕ
  info : ResultInfo
deriving DecidableEq

/-- How `CallArgs` ends. -/
inductive Outcome where
  | clientClosed
  | failed (err : String)
  | reply (a : Arrival)
  | chanClosed
  | deadline
deriving DecidableEq

/-- What `CallArgs` returns, `bytes2Args` being `argsutil.Bytes2Args` for the application. -/
def Outcome.value {ρ : Type} (bytes2Args : String → List UInt8 → Except String ρ) :
    Outcome → Option ρ × String
  | clientClosed => (none, "AMQPClient is closed")
  | failed err => (none, err)
  | reply a =>
    match bytes2Args a.info.resultType a.info.result with
    | .error err => (none, err)
    | .ok result => (some result, a.info.error)
  | chanClosed => (none, "client closed")
  | deadline => (none, "deadline exceeded")

/-- The program counter of a `CallArgs` invocation. -/
inductive CallPc where
  | idle
  /-- `c.callinfos` was not `nil`. -/
  | checked
  /-- The entry is in the table, the request not yet published. -/
  | registered
  /-- In the `select`. -/
  | waiting
  /-- The context is done, the channel not yet closed. -/
  | timedOut
  /-- The channel is closed, the entry not yet deleted. -/
  | closing
  | returned (o : Outcome)
  | panicked
deriving DecidableEq

/-- The program counter of `on_request_handle`. -/
inductive LoopPc (κ : Type) where
  | head
  | reading
  | got (a : Arrival)
  | found (a : Arrival) (e : Option (ClinetCallInfo κ))
  | deleted (a : Arrival) (e : Option (ClinetCallInfo κ))
  | sent (call : κ)
  | exited
  /-- A panic was recovered at the top of the function, which has returned. -/
  | dead
deriving DecidableEq

/-- The program counter of a `Done` invocation; the lists are what is left of the copied table. -/
inductive DonePc (κ : Type) where
  | idle
  | closing (items : List (String × ClinetCallInfo κ))
  | deleting (key : String) (items : List (String × ClinetCallInfo κ))
  | signalling
  | signalled
  | finished
  | panicked
deriving DecidableEq

/-- A value sent on the callback channel of `call`. -/
structure Delivery (κ : Type) where
  call : κ
  arrival : Arrival
deriving DecidableEq

structure State (κ δ : Type) where
  callinfos : BeeMap String (ClinetCallInfo κ)
  /-- `c.callinfos` is `nil`. -/
  dropped : Bool
  chan : κ → Chan Arrival 1
  caller : κ → CallPc
  loop : LoopPc κ
  done : δ → DonePc κ
  /-- The goroutine behind `c.done` has received and unsubscribed. -/
  unsubscribed : Bool
  isClose : Bool
  /-- How many replies have arrived. -/
  arrivals : ℕ
  /-- Every send of the loop, the last one first. -/
  sent : List (Delivery κ)

inductive CallAct where
  | check | set | publish (err : Option String) | recv | timeout | close | delete | panic

inductive LoopAct where
  | check
  /-- `NextMsg` fails or times out, or the message does not decode. -/
  | noMsg
  | arrive (r : ResultInfo)
  | get | delete | send | close | panic

inductive DoneAct (κ : Type) where
  | items (l : List (String × ClinetCallInfo κ))
  | close | delete | clear | signal | finish | panic

inductive Act (κ δ : Type) where
  | call (k : κ) (a : CallAct)
  | loop (a : LoopAct)
  | done (d : δ) (a : DoneAct κ)

variable {κ δ : Type} [DecidableEq κ]

namespace State

def setCaller (s : State κ δ) (k : κ) (pc : CallPc) : State κ δ :=
  { s with caller := Function.update s.caller k pc }

def setChan (s : State κ δ) (k : κ) (c : Chan Arrival 1) : State κ δ :=
  { s with chan := Function.update s.chan k c }

def setDone [DecidableEq δ] (s : State κ δ) (d : δ) (pc : DonePc κ) : State κ δ :=
  { s with done := Function.update s.done d pc }

theorem caller_setCaller (s : State κ δ) (k k' : κ) (pc : CallPc) :
    (s.setCaller k pc).caller k' = if k' = k then pc else s.caller k' :=
  Function.update_apply s.caller k pc k'

theorem chan_setChan (s : State κ δ) (k k' : κ) (c : Chan Arrival 1) :
    (s.setChan k c).chan k' = if k' = k then c else s.chan k' :=
  Function.update_apply s.chan k c k'

/-- `close_callback_chan` and `CloseFch`. -/
def closeFch (s : State κ δ) (k : κ) : State κ δ := s.setChan k (s.chan k).closeRecover

/-- `c.callinfos.Delete(key)`. -/
def delete (s : State κ δ) (key : String) : State κ δ :=
  { s with callinfos := s.callinfos.delete key }

end State

/-- `NewNatsClient`, with the loop about to enter its `for`. -/
def State.init : State κ δ where
  callinfos := BeeMap.new
  dropped := false
  chan := fun _ => Chan.make
  caller := fun _ => .idle
  loop := .head
  done := fun _ => .idle
  unsubscribed := false
  isClose := false
  arrivals := 0
  sent := []

/-- A step of the `CallArgs` invocation `k`, whose correlation id is `cid k`. -/
def callStep (cid : κ → String) (s : State κ δ) (k : κ) : CallPc → CallAct → Option (State κ δ)
  | .idle, .check =>
    if s.dropped then some (s.setCaller k (.returned .clientClosed))
    else some (s.setCaller k .checked)
  | .checked, .set =>
    some ({ s with callinfos := (s.callinfos.set (cid k) ⟨cid k, k⟩).1 }.setCaller k .registered)
  | .registered, .publish none => some (s.setCaller k .waiting)
  | .registered, .publish (some err) => some (s.setCaller k (.returned (.failed err)))
  | .waiting, .recv =>
    match (s.chan k).recv with
    | .ok (some a, c) => some ((s.setChan k c).setCaller k (.returned (.reply a)))
    | .ok (none, _) => some (s.setCaller k (.returned .chanClosed))
    | _ => none
  | .waiting, .timeout => some (s.setCaller k .timedOut)
  | .timedOut, .close => some ((s.closeFch k).setCaller k .closing)
  | .closing, .delete => some ((s.delete (cid k)).setCaller k (.returned .deadline))
  | .checked, .panic => if s.dropped then some (s.setCaller k .panicked) else none
  | .closing, .panic => if s.dropped then some (s.setCaller k .panicked) else none
  | _, _ => none

/-- A step of `on_request_handle`. -/
def loopStep (s : State κ δ) : LoopPc κ → LoopAct → Option (State κ δ)
  | .head, .check =>
    if s.isClose then some { s with loop := .exited } else some { s with loop := .reading }
  | .reading, .noMsg => some { s with loop := .head }
  | .reading, .arrive r =>
    some { s with loop := .got ⟨s.arrivals, r⟩, arrivals := s.arrivals + 1 }
  | .got a, .get => some { s with loop := .found a (s.callinfos.get a.info.cid) }
  | .found a e, .delete => some { s.delete a.info.cid with loop := .deleted a e }
  | .deleted _ none, .send => some { s with loop := .head }
  | .deleted a (some info), .send =>
    match (s.chan info.call).send a with
    | .ok c =>
      some { s.setChan info.call c with loop := .sent info.call, sent := ⟨info.call, a⟩ :: s.sent }
    | .panic => some { s with loop := .dead }
    | .blocked => none
  | .sent k, .close => some { s.closeFch k with loop := .head }
  | .got _, .panic => if s.dropped then some { s with loop := .dead } else none
  | .found _ _, .panic => if s.dropped then some { s with loop := .dead } else none
  | _, _ => none

section Done

variable [DecidableEq δ]

/-- A step of the `Done` invocation `d`. -/
def doneStep (s : State κ δ) (d : δ) : DonePc κ → DoneAct κ → Option (State κ δ)
  | .idle, .items l =>
    if l.Perm s.callinfos.items then some (s.setDone d (.closing l)) else none
  | .closing ((key, info) :: rest), .close =>
    some ((s.closeFch info.call).setDone d (.deleting key rest))
  | .deleting key rest, .delete => some ((s.delete key).setDone d (.closing rest))
  | .closing [], .clear => some ({ s with dropped := true }.setDone d .signalling)
  | .signalling, .signal =>
    -- the channel has no buffer and its one receiver takes one value
    if s.unsubscribed then none else some ({ s with unsubscribed := true }.setDone d .signalled)
  | .signalled, .finish => some ({ s with isClose := true }.setDone d .finished)
  | .idle, .panic => if s.dropped then some (s.setDone d .panicked) else none
  | .deleting _ _, .panic => if s.dropped then some (s.setDone d .panicked) else none
  | _, _ => none

/-- One step of one actor. -/
def step (cid : κ → String) (s : State κ δ) : Act κ δ → Option (State κ δ)
  | .call k a => callStep cid s k (s.caller k) a
  | .loop a => loopStep s s.loop a
  | .done d a => doneStep s d (s.done d) a

end Done

/-! ## What the steps do

Each relation has one constructor for each way to take a step: the program counter before, the action,
what was found, and the state after. -/

/-- The steps of a call. -/
inductive CallStep (cid : κ → String) (s : State κ δ) (k : κ) :
    CallPc → CallAct → State κ δ → Prop where
  | clientClosed (hdropped : s.dropped = true) :
      CallStep cid s k .idle .check (s.setCaller k (.returned .clientClosed))
  | check (hkept : s.dropped = false) : CallStep cid s k .idle .check (s.setCaller k .checked)
  | set :
      CallStep cid s k .checked .set
        ({ s with callinfos := (s.callinfos.set (cid k) ⟨cid k, k⟩).1 }.setCaller k .registered)
  | publish : CallStep cid s k .registered (.publish none) (s.setCaller k .waiting)
  | publishError (err : String) :
      CallStep cid s k .registered (.publish (some err)) (s.setCaller k (.returned (.failed err)))
  | recv {a : Arrival} {c : Chan Arrival 1} (hrecv : (s.chan k).recv = .ok (some a, c)) :
      CallStep cid s k .waiting .recv ((s.setChan k c).setCaller k (.returned (.reply a)))
  | recvClosed {c : Chan Arrival 1} (hrecv : (s.chan k).recv = .ok (none, c)) :
      CallStep cid s k .waiting .recv (s.setCaller k (.returned .chanClosed))
  | timeout : CallStep cid s k .waiting .timeout (s.setCaller k .timedOut)
  | close : CallStep cid s k .timedOut .close ((s.closeFch k).setCaller k .closing)
  | delete :
      CallStep cid s k .closing .delete ((s.delete (cid k)).setCaller k (.returned .deadline))
  | setPanic (hdropped : s.dropped = true) :
      CallStep cid s k .checked .panic (s.setCaller k .panicked)
  | deletePanic (hdropped : s.dropped = true) :
      CallStep cid s k .closing .panic (s.setCaller k .panicked)

theorem callStep_eq_some {cid : κ → String} {s s' : State κ δ} {k : κ} {pc : CallPc} {a : CallAct}
    (h : callStep cid s k pc a = some s') : CallStep cid s k pc a s' := by
  unfold callStep at h
  split at h
  · split at h <;> obtain rfl := Option.some.inj h
    · next hdropped => exact .clientClosed hdropped
    · next hkept => exact .check (Bool.not_eq_true _ ▸ hkept)
  · obtain rfl := Option.some.inj h
    exact .set
  · obtain rfl := Option.some.inj h
    exact .publish
  · obtain rfl := Option.some.inj h
    exact .publishError _
  · split at h
    · next hrecv =>
      obtain rfl := Option.some.inj h
      exact .recv hrecv
    · next hrecv =>
      obtain rfl := Option.some.inj h
      exact .recvClosed hrecv
    · cases h
  · obtain rfl := Option.some.inj h
    exact .timeout
  · obtain rfl := Option.some.inj h
    exact .close
  · obtain rfl := Option.some.inj h
    exact .delete
  · split at h
    · next hdropped =>
      obtain rfl := Option.some.inj h
      exact .setPanic hdropped
    · cases h
  · split at h
    · next hdropped =>
      obtain rfl := Option.some.inj h
      exact .deletePanic hdropped
    · cases h
  · cases h

/-- The steps of the loop. -/
inductive LoopStep (s : State κ δ) : LoopPc κ → LoopAct → State κ δ → Prop where
  | exit (hclose : s.isClose = true) : LoopStep s .head .check { s with loop := .exited }
  | read (hopen : s.isClose = false) : LoopStep s .head .check { s with loop := .reading }
  | noMsg : LoopStep s .reading .noMsg { s with loop := .head }
  | arrive (r : ResultInfo) :
      LoopStep s .reading (.arrive r)
        { s with loop := .got ⟨s.arrivals, r⟩, arrivals := s.arrivals + 1 }
  | get (a : Arrival) :
      LoopStep s (.got a) .get { s with loop := .found a (s.callinfos.get a.info.cid) }
  | delete (a : Arrival) (e : Option (ClinetCallInfo κ)) :
      LoopStep s (.found a e) .delete { s.delete a.info.cid with loop := .deleted a e }
  | noEntry (a : Arrival) : LoopStep s (.deleted a none) .send { s with loop := .head }
  | send {a : Arrival} {info : ClinetCallInfo κ} {c : Chan Arrival 1}
      (hsend : (s.chan info.call).send a = .ok c) :
      LoopStep s (.deleted a (some info)) .send
        { s.setChan info.call c with loop := .sent info.call, sent := ⟨info.call, a⟩ :: s.sent }
  | sendPanic {a : Arrival} {info : ClinetCallInfo κ} (hsend : (s.chan info.call).send a = .panic) :
      LoopStep s (.deleted a (some info)) .send { s with loop := .dead }
  | close (k : κ) : LoopStep s (.sent k) .close { s.closeFch k with loop := .head }
  | getPanic (a : Arrival) (hdropped : s.dropped = true) :
      LoopStep s (.got a) .panic { s with loop := .dead }
  | deletePanic (a : Arrival) (e : Option (ClinetCallInfo κ)) (hdropped : s.dropped = true) :
      LoopStep s (.found a e) .panic { s with loop := .dead }

theorem loopStep_eq_some {s s' : State κ δ} {pc : LoopPc κ} {a : LoopAct}
    (h : loopStep s pc a = some s') : LoopStep s pc a s' := by
  unfold loopStep at h
  split at h
  · split at h <;> obtain rfl := Option.some.inj h
    · next hclose => exact .exit hclose
    · next hopen => exact .read (Bool.not_eq_true _ ▸ hopen)
  · obtain rfl := Option.some.inj h
    exact .noMsg
  · obtain rfl := Option.some.inj h
    exact .arrive _
  · obtain rfl := Option.some.inj h
    exact .get _
  · obtain rfl := Option.some.inj h
    exact .delete _ _
  · obtain rfl := Option.some.inj h
    exact .noEntry _
  · split at h
    · next hsend =>
      obtain rfl := Option.some.inj h
      exact .send hsend
    · next hsend =>
      obtain rfl := Option.some.inj h
      exact .sendPanic hsend
    · cases h
  · obtain rfl := Option.some.inj h
    exact .close _
  · split at h
    · next hdropped =>
      obtain rfl := Option.some.inj h
      exact .getPanic _ hdropped
    · cases h
  · split at h
    · next hdropped =>
      obtain rfl := Option.some.inj h
      exact .deletePanic _ _ hdropped
    · cases h
  · cases h

variable [DecidableEq δ]

/-- The steps of `Done`. -/
inductive DoneStep (s : State κ δ) (d : δ) : DonePc κ → DoneAct κ → State κ δ → Prop where
  | items {l : List (String × ClinetCallInfo κ)} (hperm : l.Perm s.callinfos.items) :
      DoneStep s d .idle (.items l) (s.setDone d (.closing l))
  | close (key : String) (info : ClinetCallInfo κ) (rest : List (String × ClinetCallInfo κ)) :
      DoneStep s d (.closing ((key, info) :: rest)) .close
        ((s.closeFch info.call).setDone d (.deleting key rest))
  | delete (key : String) (rest : List (String × ClinetCallInfo κ)) :
      DoneStep s d (.deleting key rest) .delete ((s.delete key).setDone d (.closing rest))
  | clear : DoneStep s d (.closing []) .clear ({ s with dropped := true }.setDone d .signalling)
  | signal (hfirst : s.unsubscribed = false) :
      DoneStep s d .signalling .signal ({ s with unsubscribed := true }.setDone d .signalled)
  | finish : DoneStep s d .signalled .finish ({ s with isClose := true }.setDone d .finished)
  | itemsPanic (hdropped : s.dropped = true) : DoneStep s d .idle .panic (s.setDone d .panicked)
  | deletePanic (key : String) (rest : List (String × ClinetCallInfo κ))
      (hdropped : s.dropped = true) :
      DoneStep s d (.deleting key rest) .panic (s.setDone d .panicked)

theorem doneStep_eq_some {s s' : State κ δ} {d : δ} {pc : DonePc κ} {a : DoneAct κ}
    (h : doneStep s d pc a = some s') : DoneStep s d pc a s' := by
  unfold doneStep at h
  split at h
  · split at h
    · next hperm =>
      obtain rfl := Option.some.inj h
      exact .items hperm
    · cases h
  · obtain rfl := Option.some.inj h
    exact .close _ _ _
  · obtain rfl := Option.some.inj h
    exact .delete _ _
  · obtain rfl := Option.some.inj h
    exact .clear
  · split at h
    · cases h
    · next hfirst =>
      obtain rfl := Option.some.inj h
      exact .signal (Bool.not_eq_true _ ▸ hfirst)
  · obtain rfl := Option.some.inj h
    exact .finish
  · split at h
    · next hdropped =>
      obtain rfl := Option.some.inj h
      exact .itemsPanic hdropped
    · cases h
  · split at h
    · next hdropped =>
      obtain rfl := Option.some.inj h
      exact .deletePanic _ _ hdropped
    · cases h
  · cases h

end Vmqant.Rpc
