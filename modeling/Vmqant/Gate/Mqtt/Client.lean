import Vmqant.Common.Lts
import Vmqant.Common.Script
import Vmqant.Gate.Mqtt.Read

/-!
# The read loop of a client

Reference: `gate/base/mqtt/mqtt_client_server.go`, lines 29-72 and 92-182;
`gate/base/mqtt/pack_queue.go`, lines 166-197.

`Listen_loop` starts the flusher and runs `ReadPackInLoop`, which reads a pack, gives it to `waitPack`, and
stops at the first error. `waitPack` acknowledges the pack and hands some kinds of packs on to the receiver.
Each of its calls is a step of the loop, so that everything else may happen in between: the receiver's own
goroutines run, and others close the queue. What `WritePack` returns is part of the action, and so is a
read that fails before the bytes do, for a deadline or a closed connection. Deadlines themselves are left
out, and `SetAlive` only sets one.
-/

namespace Vmqant.Mqtt

open Lts

/-! ## `waitPack` -/

/-- What `waitPack` calls. -/
inductive Call where
  | setAlive (alive : ℕ)
  | writePack (pack : Pack)
  | onRecover (pack : Pack)
deriving DecidableEq

/-- `WritePack` returns an error or `nil`. -/
abbrev Call.Result : Call → Type
  | .writePack _ => Option String
  | .setAlive _ | .onRecover _ => Unit

structure PackAndErr where
  pack : Pack
  err : Option String

/-- The panic of a type assertion. -/
def notA (type : String) : PanicValue :=
  .error s!"interface conversion: the variable is not *mqtt.{type}"

namespace Variable

/-- `v.(*Publish)`, and so on. -/
def asPublish : Variable → Except PanicValue Publish
  | .publish p => .ok p
  | _ => .error (notA "Publish")

def asPuback : Variable → Except PanicValue Puback
  | .puback a => .ok a
  | _ => .error (notA "Puback")

def asSubscribe : Variable → Except PanicValue Subscribe
  | .subscribe s => .ok s
  | _ => .error (notA "Subscribe")

def asUNSubscribe : Variable → Except PanicValue UNSubscribe
  | .unsubscribe s => .ok s
  | _ => .error (notA "UNSubscribe")

end Variable

namespace Client

/-- `c.queue.SetAlive`, `c.queue.WritePack` and `c.recover.OnRecover`. -/
def setAlive (alive : ℕ) : Script Call Call.Result Unit := .perform (Call.setAlive alive)

def writePack (pack : Pack) : Script Call Call.Result (Option String) := .perform (Call.writePack pack)

def onRecover (pack : Pack) : Script Call Call.Result Unit := .perform (Call.onRecover pack)

/-- `waitPack`, which returns an error or `nil`. -/
def waitPack (pAndErr : PackAndErr) : Script Call Call.Result (Option String) :=
  match pAndErr.err with
  | some err => pure (some err)
  | none =>
    let pack := pAndErr.pack
    if pack.msgType = CONNECT then
      match pack.variable_ with
      | .connect conn => do
        setAlive conn.keepAliveTimer
        writePack (getConnAckPack 0)
      | _ => pure (some "It's not a mqtt connection package.")
    else if pack.msgType = PUBLISH then do
      let pub ← .lift pack.variable_.asPublish
      let err ←
        if pack.qosLevel = 1 then writePack (getPubAckPack pub.mid)
        else if pack.qosLevel = 2 then writePack (getPubRECPack pub.mid)
        else pure none
      onRecover pack
      pure err
    else if pack.msgType = PUBACK then pure none
    else if pack.msgType = PUBREC then do
      let ack ← .lift pack.variable_.asPuback
      writePack (getPubRELPack ack.mid)
    else if pack.msgType = PUBREL then do
      let ack ← .lift pack.variable_.asPuback
      writePack (getPubCOMPPack ack.mid)
    else if pack.msgType = PUBCOMP then pure none
    else if pack.msgType = SUBSCRIBE then do
      let sub ← .lift pack.variable_.asSubscribe
      -- the error of the last write is kept
      let err ← sub.topics.foldlM
        (fun err top =>
          if top.qos = 2 then writePack (getSubAckPack sub.mid) else pure err) none
      onRecover pack
      pure err
    else if pack.msgType = UNSUBSCRIBE then do
      let sub ← .lift pack.variable_.asUNSubscribe
      let err ← writePack (getUNSubAckPack sub.mid)
      onRecover pack
      pure err
    else if pack.msgType = PINGREQ then do
      let err ← writePack (getPingResp 0 pack.dupFlag)
      onRecover pack
      pure err
    else pure none

end Client

/-! ## `Listen_loop` -/

/-- The receiver of the packs, with state `ρ`: its `OnRecover`, and what its other goroutines do. -/
structure PackRecover (ρ ε : Type) where
  onRecover : Pack → Prog ρ Unit
  go : ρ → ε → Option ρ

/-- Where `Listen_loop` is. -/
inductive ListenPc where
  /-- At the condition of the loop of `ReadPackInLoop`. -/
  | head
  | reading
  /-- In `waitPack`, with what is left of it. -/
  | waiting (rest : Script Call Call.Result (Option String))
  /-- The loop is left, and `isStop` is not set. -/
  | left
  | returned
  /-- A panic has come to the deferred function, which recovers and returns. -/
  | recovered

/-- `Listen_loop` has returned. -/
def ListenPc.Ended : ListenPc → Prop
  | .returned | .recovered => True
  | _ => False

namespace Client

structure State (ρ : Type) where
  /-- `queue.isConnected()`. -/
  connected : Bool
  isStop : Bool
  pc : ListenPc
  /-- The bytes that the client has sent or will send, as far as they are not read. -/
  input : List UInt8
  recover : ρ
  /-- The packs that were given to `waitPack`. -/
  received : List Pack
  /-- For each of them, the packs that `waitPack` has given to `WritePack`. -/
  written : List (List Pack)

inductive Act (ε : Type) where
  /-- The next step of `Listen_loop`; `err` is what `WritePack` returns if it is called. -/
  | listen (err : Option String)
  /-- `ReadPack` fails. -/
  | readError
  /-- Another goroutine closes the queue. -/
  | close
  | go (e : ε)

variable {ρ ε : Type}

/-- `NewClient`. -/
def State.init (input : List UInt8) (r : ρ) : State ρ where
  connected := true
  isStop := false
  pc := .head
  input := input
  recover := r
  received := []
  written := []

/-- One more pack is written for the last pack that was received. -/
def addWritten (written : List (List Pack)) (pack : Pack) : List (List Pack) :=
  written.modify (written.length - 1) (· ++ [pack])

/-- A call of `waitPack`, with the rest of it. -/
def callStep (c : PackRecover ρ ε) (s : State ρ) (err : Option String) :
    (k : Call) → (k.Result → Script Call Call.Result (Option String)) → State ρ
  | .setAlive _, next => { s with pc := .waiting (next ()) }
  | .writePack pack, next =>
    { s with pc := .waiting (next err), written := addWritten s.written pack }
  | .onRecover pack, next =>
    match c.onRecover pack s.recover with
    | (.ok (), r) => { s with pc := .waiting (next ()), recover := r }
    | (.error _, r) => { s with pc := .recovered, recover := r }

/-- `Listen_loop`. -/
def listenStep (c : PackRecover ρ ε) (maxPackSize : ℤ) (s : State ρ) (err : Option String) :
    ListenPc → Option (State ρ)
  | .head => some { s with pc := if s.connected then .reading else .left }
  | .reading =>
    match readPack maxPackSize s.input with
    | .ok pack rest =>
      some { s with
        pc := .waiting (waitPack ⟨pack, none⟩), input := rest
        received := s.received ++ [pack], written := s.written ++ [[]] }
    | .error _ rest => some { s with pc := .left, connected := false, input := rest }
  | .waiting (.ret none) => some { s with pc := .head }
  | .waiting (.ret (some _)) => some { s with pc := .left, connected := false }
  | .waiting (.call k next) => some (callStep c s err k next)
  | .waiting (.panic _) => some { s with pc := .recovered }
  | .left => some { s with pc := .returned, isStop := true }
  | .returned | .recovered => none

def step (c : PackRecover ρ ε) (maxPackSize : ℤ) (s : State ρ) : Act ε → Option (State ρ)
  | .listen err => listenStep c maxPackSize s err s.pc
  | .readError =>
    match s.pc with
    | .reading => some { s with pc := .left, connected := false }
    | _ => none
  | .close => some { s with connected := false }
  | .go e => (c.go s.recover e).map fun r => { s with recover := r }

/-! ## What a step can do -/

section Inversion

variable {c : PackRecover ρ ε} {maxPackSize : ℤ} {s s' : State ρ} {err : Option String}

/-- The steps of `Listen_loop`. -/
inductive ListenStep (c : PackRecover ρ ε) (maxPackSize : ℤ) (s : State ρ) (err : Option String) :
    ListenPc → State ρ → Prop where
  | check {pc : ListenPc} (hpc : pc = .reading ∨ pc = .left) :
      ListenStep c maxPackSize s err .head { s with pc := pc }
  | read {pack : Pack} {rest : List UInt8} (hread : readPack maxPackSize s.input = .ok pack rest) :
      ListenStep c maxPackSize s err .reading
        { s with
          pc := .waiting (waitPack ⟨pack, none⟩), input := rest
          received := s.received ++ [pack], written := s.written ++ [[]] }
  | readError (rest : List UInt8) :
      ListenStep c maxPackSize s err .reading { s with pc := .left, connected := false, input := rest }
  | done : ListenStep c maxPackSize s err (.waiting (.ret none)) { s with pc := .head }
  | failed (e : String) :
      ListenStep c maxPackSize s err (.waiting (.ret (some e)))
        { s with pc := .left, connected := false }
  | setAlive (alive : ℕ) (next : Unit → Script Call Call.Result (Option String)) :
      ListenStep c maxPackSize s err (.waiting (.call (.setAlive alive) next))
        { s with pc := .waiting (next ()) }
  | write (pack : Pack) (next : Option String → Script Call Call.Result (Option String)) :
      ListenStep c maxPackSize s err (.waiting (.call (.writePack pack) next))
        { s with pc := .waiting (next err), written := addWritten s.written pack }
  | handOn (pack : Pack) (next : Unit → Script Call Call.Result (Option String)) {r : ρ}
      (hrecover : c.onRecover pack s.recover = (.ok (), r)) :
      ListenStep c maxPackSize s err (.waiting (.call (.onRecover pack) next))
        { s with pc := .waiting (next ()), recover := r }
  | handOnPanic (pack : Pack) (next : Unit → Script Call Call.Result (Option String)) {r : ρ}
      {v : PanicValue} (hrecover : c.onRecover pack s.recover = (.error v, r)) :
      ListenStep c maxPackSize s err (.waiting (.call (.onRecover pack) next))
        { s with pc := .recovered, recover := r }
  | panic (v : PanicValue) :
      ListenStep c maxPackSize s err (.waiting (.panic v)) { s with pc := .recovered }
  | stop : ListenStep c maxPackSize s err .left { s with pc := .returned, isStop := true }

theorem listenStep_eq_some {pc : ListenPc} (h : listenStep c maxPackSize s err pc = some s') :
    ListenStep c maxPackSize s err pc s' := by
  cases pc with
  | head =>
    obtain rfl := Option.some.inj h
    refine .check ?_
    cases s.connected with
    | true => exact .inl rfl
    | false => exact .inr rfl
  | reading =>
    rw [listenStep] at h
    split at h
    · next hread =>
      obtain rfl := Option.some.inj h
      exact .read hread
    · obtain rfl := Option.some.inj h
      exact .readError _
  | waiting rest =>
    cases rest with
    | ret e =>
      cases e with
      | none =>
        obtain rfl := Option.some.inj h
        exact .done
      | some e =>
        obtain rfl := Option.some.inj h
        exact .failed e
    | call k next =>
      obtain rfl := Option.some.inj h
      cases k with
      | setAlive alive => exact .setAlive alive next
      | writePack pack => exact .write pack next
      | onRecover pack =>
        rw [callStep]
        split
        · next hrecover => exact .handOn pack next hrecover
        · next hrecover => exact .handOnPanic pack next hrecover
    | panic v =>
      obtain rfl := Option.some.inj h
      exact .panic v
  | left =>
    obtain rfl := Option.some.inj h
    exact .stop
  | returned => cases h
  | recovered => cases h

/-- What others do to the state of the loop. -/
inductive OtherStep (s : State ρ) : State ρ → Prop where
  | readError (hpc : s.pc = .reading) : OtherStep s { s with pc := .left, connected := false }
  | close : OtherStep s { s with connected := false }
  | go (r : ρ) : OtherStep s { s with recover := r }

/-- A step is one of `Listen_loop`, or of others. -/
theorem step_eq_some {a : Act ε} (h : step c maxPackSize s a = some s') :
    (∃ err, a = .listen err ∧ ListenStep c maxPackSize s err s.pc s') ∨
      ((∀ err, a ≠ .listen err) ∧ OtherStep s s') := by
  cases a with
  | listen err => exact .inl ⟨err, rfl, listenStep_eq_some h⟩
  | readError =>
    refine .inr ⟨by simp, ?_⟩
    rw [step] at h
    split at h
    · next hpc =>
      obtain rfl := Option.some.inj h
      exact .readError hpc
    · cases h
  | close =>
    refine .inr ⟨by simp, ?_⟩
    obtain rfl := Option.some.inj h
    exact .close
  | go e =>
    refine .inr ⟨by simp, ?_⟩
    obtain ⟨r, -, rfl⟩ := Option.map_eq_some_iff.mp h
    exact .go r

end Inversion

end Client

end Vmqant.Mqtt
