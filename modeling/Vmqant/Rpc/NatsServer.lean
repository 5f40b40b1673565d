import Vmqant.Common.Lts

/-!
# The NATS RPC server

Reference: `rpc/base/nats_server.go`, lines 56-187, and `rpc/base/rpc_server.go`, lines 124-135, 210-217
and 379-416.

A transition system of the goroutine of `on_request_handle`, the goroutine that waits for `s.done`, one
goroutine for each request to a function registered with `RegisterGO`, and any number of invocations
`δ` of `RPCServer.Done` or `NatsServer.Shutdown`. Requests `ρ` whose function was registered with
`Register` run in the loop. A message that starts no handler (it does not decode, its function is not
found, the number of its parameters is wrong) is skipped.

Subscriptions are numbered in the order they are made. An inactive one is not valid any more, and its
`NextMsg` fails. The methods of a `nil` subscription return an error.
-/

namespace Vmqant.Rpc.NatsServer

/-- What becomes of a request. -/
inductive ReqPc where
  | idle
  /-- Decoded by the loop, its handler not started. -/
  | accepted
  /-- Its goroutine is started and has not reached `s.wg.Add(1)`. -/
  | spawned
  /-- Between `s.wg.Add(1)` and `s.wg.Add(-1)`. -/
  | running
  | finished
deriving DecidableEq

/-- The program counter of `on_request_handle`. -/
inductive LoopPc (ρ : Type) where
  | start
  | head
  | reading
  /-- `NextMsg` returned an error. -/
  | failed
  /-- The subscription was found to be invalid. -/
  | invalid
  | dispatching (r : ρ)
  /-- In the handler of `r`. -/
  | running (r : ρ)
  /-- The function has returned, `s.stopeds` is not closed. -/
  | leaving
  | stopped
deriving DecidableEq

/-- The program counter of the goroutine that unsubscribes. -/
inductive UnsubPc where
  /-- It was not started. -/
  | off
  | waiting
  /-- It has read `s.subs`. -/
  | read (sub : Option ℕ)
  | finished
deriving DecidableEq

/-- The program counter of `Done`, or of `Shutdown` alone; the flag says that `s.wg.Wait()` was
passed. -/
inductive ClosePc where
  | idle
  | waited
  /-- `s.done` is closed. -/
  | closed (waited : Bool)
  /-- `s.isClose` is set. -/
  | closing (waited : Bool)
  | returned (waited : Bool)
deriving DecidableEq

structure State (ρ δ : Type) where
  subs : Option ℕ
  active : ℕ → Bool
  /-- How many subscriptions were made. -/
  subscriptions : ℕ
  done : Bool
  isClose : Bool
  stopeds : Bool
  loop : LoopPc ρ
  unsub : UnsubPc
  wg : ℕ
  req : ρ → ReqPc
  closer : δ → ClosePc

inductive LoopAct (ρ : Type) where
  | subscribe (ok : Bool)
  | check | noMsg | skip | receive (r : ρ) | dispatch | finish | panic | stop

inductive ReqAct where
  | begin | finish

inductive UnsubAct where
  | read | unsubscribe

inductive CloseAct where
  | wait | close | setClose | ret

inductive Act (ρ δ : Type) where
  | loop (a : LoopAct ρ)
  | req (r : ρ) (a : ReqAct)
  | unsub (a : UnsubAct)
  | closer (d : δ) (a : CloseAct)
  /-- The subscription breaks. -/
  | lose (sub : ℕ)

variable {ρ δ : Type}

namespace State

/-- `NewNatsServer`. -/
def init : State ρ δ where
  subs := none
  active _ := false
  subscriptions := 0
  done := false
  isClose := false
  stopeds := false
  loop := .start
  unsub := .off
  wg := 0
  req _ := .idle
  closer _ := .idle

/-- `s.subs.IsValid()`. -/
def valid (s : State ρ δ) : Bool := s.subs.elim false s.active

/-- `SubscribeSync(s.addr)` succeeds. -/
def subscribe (s : State ρ δ) : State ρ δ :=
  { s with
    subs := some s.subscriptions
    active := Function.update s.active s.subscriptions true
    subscriptions := s.subscriptions + 1 }

/-- The subscription is not active any more. -/
def deactivate (s : State ρ δ) (sub : ℕ) : State ρ δ :=
  { s with active := Function.update s.active sub false }

def setReq [DecidableEq ρ] (s : State ρ δ) (r : ρ) (pc : ReqPc) : State ρ δ :=
  { s with req := Function.update s.req r pc }

def setCloser [DecidableEq δ] (s : State ρ δ) (d : δ) (pc : ClosePc) : State ρ δ :=
  { s with closer := Function.update s.closer d pc }

end State

/-- A step of the goroutine behind `s.done`. -/
def unsubStep (s : State ρ δ) : UnsubPc → UnsubAct → Option (State ρ δ)
  | .waiting, .read => if s.done then some { s with unsub := .read s.subs } else none
  | .read none, .unsubscribe => some { s with unsub := .finished }
  | .read (some sub), .unsubscribe => some { s.deactivate sub with unsub := .finished }
  | _, _ => none

/-- A step of an invocation of `Done`, or of `Shutdown` when it starts with `close`. -/
def closeStep [DecidableEq δ] (s : State ρ δ) (d : δ) : ClosePc → CloseAct → Option (State ρ δ)
  | .idle, .wait => if s.wg = 0 then some (s.setCloser d .waited) else none
  | .waited, .close => some ({ s with done := true }.setCloser d (.closed true))
  | .idle, .close => some ({ s with done := true }.setCloser d (.closed false))
  | .closed w, .setClose => some ({ s with isClose := true }.setCloser d (.closing w))
  | .closing w, .ret => if s.stopeds then some (s.setCloser d (.returned w)) else none
  | _, _ => none

section Steps

variable [DecidableEq ρ]

/-- A step of `on_request_handle`; `go r` says that the function of `r` was registered with
`RegisterGO`. -/
def loopStep (go : ρ → Bool) (s : State ρ δ) : LoopPc ρ → LoopAct ρ → Option (State ρ δ)
  | .start, .subscribe true => some { s.subscribe with loop := .head, unsub := .waiting }
  | .start, .subscribe false => some { s with loop := .leaving }
  | .head, .check =>
    if s.isClose then some { s with loop := .leaving } else some { s with loop := .reading }
  | .reading, .noMsg => some { s with loop := .failed }
  | .reading, .skip => if s.valid then some { s with loop := .head } else none
  | .reading, .receive r =>
    if s.valid ∧ s.req r = .idle then some { s.setReq r .accepted with loop := .dispatching r }
    else none
  | .failed, .check =>
    if s.valid then some { s with loop := .head } else some { s with loop := .invalid }
  -- there is no look at `s.isClose` before the new subscription
  | .invalid, .subscribe true => some { s.subscribe with loop := .head }
  | .invalid, .subscribe false => some { s with subs := none, loop := .head }
  | .dispatching r, .dispatch =>
    if go r then some { s.setReq r .spawned with loop := .head }
    else some { s.setReq r .running with loop := .running r, wg := s.wg + 1 }
  | .running r, .finish => some { s.setReq r .finished with loop := .head, wg := s.wg - 1 }
  -- a panic that `runFunc` does not stop is recovered at the top of the loop's function
  | .running r, .panic => some { s.setReq r .finished with loop := .leaving, wg := s.wg - 1 }
  | .leaving, .stop => some { s with loop := .stopped, stopeds := true }
  | _, _ => none

/-- A step of the goroutine of the request `r`. -/
def reqStep (go : ρ → Bool) (s : State ρ δ) (r : ρ) : ReqPc → ReqAct → Option (State ρ δ)
  | .spawned, .begin => some { s.setReq r .running with wg := s.wg + 1 }
  | .running, .finish =>
    if go r then some { s.setReq r .finished with wg := s.wg - 1 } else none
  | _, _ => none

/-- One step of one actor. -/
def step [DecidableEq δ] (go : ρ → Bool) (s : State ρ δ) : Act ρ δ → Option (State ρ δ)
  | .loop a => loopStep go s s.loop a
  | .req r a => reqStep go s r (s.req r) a
  | .unsub a => unsubStep s s.unsub a
  | .closer d a => closeStep s d (s.closer d) a
  | .lose sub => some (s.deactivate sub)

end Steps

/-! ## What the steps do

Each relation has one constructor for each way to take a step: the program counter before, the action,
what was found, and the state after. -/

/-- The steps of the goroutine behind `s.done`. -/
inductive UnsubStep (s : State ρ δ) : UnsubPc → UnsubAct → State ρ δ → Prop where
  | read (hdone : s.done = true) : UnsubStep s .waiting .read { s with unsub := .read s.subs }
  | nothing : UnsubStep s (.read none) .unsubscribe { s with unsub := .finished }
  | unsubscribe (sub : ℕ) :
      UnsubStep s (.read (some sub)) .unsubscribe { s.deactivate sub with unsub := .finished }

theorem unsubStep_eq_some {s s' : State ρ δ} {pc : UnsubPc} {a : UnsubAct}
    (h : unsubStep s pc a = some s') : UnsubStep s pc a s' := by
  unfold unsubStep at h
  split at h
  · split at h
    · next hdone =>
      obtain rfl := Option.some.inj h
      exact .read hdone
    · cases h
  · obtain rfl := Option.some.inj h
    exact .nothing
  · obtain rfl := Option.some.inj h
    exact .unsubscribe _
  · cases h

/-- The steps of `Done` and `Shutdown`. -/
inductive CloseStep [DecidableEq δ] (s : State ρ δ) (d : δ) :
    ClosePc → CloseAct → State ρ δ → Prop where
  | wait (hwg : s.wg = 0) : CloseStep s d .idle .wait (s.setCloser d .waited)
  | close : CloseStep s d .waited .close ({ s with done := true }.setCloser d (.closed true))
  | closeOnly : CloseStep s d .idle .close ({ s with done := true }.setCloser d (.closed false))
  | setClose (w : Bool) :
      CloseStep s d (.closed w) .setClose ({ s with isClose := true }.setCloser d (.closing w))
  | ret (w : Bool) (hstop : s.stopeds = true) :
      CloseStep s d (.closing w) .ret (s.setCloser d (.returned w))

theorem closeStep_eq_some [DecidableEq δ] {s s' : State ρ δ} {d : δ} {pc : ClosePc} {a : CloseAct}
    (h : closeStep s d pc a = some s') : CloseStep s d pc a s' := by
  unfold closeStep at h
  split at h
  · split at h
    · next hwg =>
      obtain rfl := Option.some.inj h
      exact .wait hwg
    · cases h
  · obtain rfl := Option.some.inj h
    exact .close
  · obtain rfl := Option.some.inj h
    exact .closeOnly
  · obtain rfl := Option.some.inj h
    exact .setClose _
  · split at h
    · next hstop =>
      obtain rfl := Option.some.inj h
      exact .ret _ hstop
    · cases h
  · cases h

/-- The steps of the loop. -/
inductive LoopStep [DecidableEq ρ] (go : ρ → Bool) (s : State ρ δ) :
    LoopPc ρ → LoopAct ρ → State ρ δ → Prop where
  | subscribe :
      LoopStep go s .start (.subscribe true) { s.subscribe with loop := .head, unsub := .waiting }
  | noSubscribe : LoopStep go s .start (.subscribe false) { s with loop := .leaving }
  | leave (hclose : s.isClose = true) : LoopStep go s .head .check { s with loop := .leaving }
  | read (hclose : ¬ s.isClose = true) : LoopStep go s .head .check { s with loop := .reading }
  | noMsg : LoopStep go s .reading .noMsg { s with loop := .failed }
  | skip (hvalid : s.valid = true) : LoopStep go s .reading .skip { s with loop := .head }
  | receive (r : ρ) (hvalid : s.valid = true) (hidle : s.req r = .idle) :
      LoopStep go s .reading (.receive r) { s.setReq r .accepted with loop := .dispatching r }
  | retry (hvalid : s.valid = true) : LoopStep go s .failed .check { s with loop := .head }
  | invalid (hvalid : ¬ s.valid = true) : LoopStep go s .failed .check { s with loop := .invalid }
  | resubscribe : LoopStep go s .invalid (.subscribe true) { s.subscribe with loop := .head }
  | noResubscribe :
      LoopStep go s .invalid (.subscribe false) { s with subs := none, loop := .head }
  | spawn (r : ρ) (hgo : go r = true) :
      LoopStep go s (.dispatching r) .dispatch { s.setReq r .spawned with loop := .head }
  | run (r : ρ) (hgo : go r = false) :
      LoopStep go s (.dispatching r) .dispatch
        { s.setReq r .running with loop := .running r, wg := s.wg + 1 }
  | finish (r : ρ) :
      LoopStep go s (.running r) .finish { s.setReq r .finished with loop := .head, wg := s.wg - 1 }
  | panic (r : ρ) :
      LoopStep go s (.running r) .panic
        { s.setReq r .finished with loop := .leaving, wg := s.wg - 1 }
  | stop : LoopStep go s .leaving .stop { s with loop := .stopped, stopeds := true }

theorem loopStep_eq_some [DecidableEq ρ] {go : ρ → Bool} {s s' : State ρ δ} {pc : LoopPc ρ}
    {a : LoopAct ρ} (h : loopStep go s pc a = some s') : LoopStep go s pc a s' := by
  unfold loopStep at h
  split at h
  · obtain rfl := Option.some.inj h
    exact .subscribe
  · obtain rfl := Option.some.inj h
    exact .noSubscribe
  · split at h <;> obtain rfl := Option.some.inj h
    · next hclose => exact .leave hclose
    · next hclose => exact .read hclose
  · obtain rfl := Option.some.inj h
    exact .noMsg
  · split at h
    · next hvalid =>
      obtain rfl := Option.some.inj h
      exact .skip hvalid
    · cases h
  · split at h
    · next hreq =>
      obtain rfl := Option.some.inj h
      exact .receive _ hreq.1 hreq.2
    · cases h
  · split at h <;> obtain rfl := Option.some.inj h
    · next hvalid => exact .retry hvalid
    · next hvalid => exact .invalid hvalid
  · obtain rfl := Option.some.inj h
    exact .resubscribe
  · obtain rfl := Option.some.inj h
    exact .noResubscribe
  · split at h <;> obtain rfl := Option.some.inj h
    · next hgo => exact .spawn _ hgo
    · next hgo => exact .run _ (Bool.not_eq_true _ ▸ hgo)
  · obtain rfl := Option.some.inj h
    exact .finish _
  · obtain rfl := Option.some.inj h
    exact .panic _
  · obtain rfl := Option.some.inj h
    exact .stop
  · cases h

/-- The steps of the goroutine of a request. -/
inductive ReqStep [DecidableEq ρ] (go : ρ → Bool) (s : State ρ δ) (r : ρ) :
    ReqPc → ReqAct → State ρ δ → Prop where
  | begin : ReqStep go s r .spawned .begin { s.setReq r .running with wg := s.wg + 1 }
  | finish (hgo : go r = true) :
      ReqStep go s r .running .finish { s.setReq r .finished with wg := s.wg - 1 }

theorem reqStep_eq_some [DecidableEq ρ] {go : ρ → Bool} {s s' : State ρ δ} {r : ρ} {pc : ReqPc}
    {a : ReqAct} (h : reqStep go s r pc a = some s') : ReqStep go s r pc a s' := by
  unfold reqStep at h
  split at h
  · obtain rfl := Option.some.inj h
    exact .begin
  · split at h
    · next hgo =>
      obtain rfl := Option.some.inj h
      exact .finish hgo
    · cases h
  · cases h

end Vmqant.Rpc.NatsServer
