import Vmqant.Common.BufWriter
import Vmqant.Common.Chan
import Vmqant.Common.Lts
import Vmqant.Gate.Mqtt.Frame

/-!
# The write queue of a connection

Reference: `gate/base/mqtt/pack_queue.go`, lines 73-155 and 199-219.

Any number of goroutines call `WritePack`, which encodes a pack into a buffered writer under a lock and
then sends a token to the flusher. The flusher takes a token and flushes the buffer under the same lock.
`Close` takes no lock. The encoder makes one call of the writer after another, and each of them is a step;
what the connection does is up to `Conn`.
-/

namespace Vmqant.Mqtt

open Lts

/-- A pack that is written: one of a constructor, with a body shorter than `2 ^ 28` bytes. -/
structure SendPack where
  pack : Pack
  made : Made pack
  small : pack.bodyLength < 2 ^ 28

namespace PackQueue

/-- Where a call of `Close` is. -/
inductive ClosePc where
  | idle
  /-- The call with an error, or with `nil`. -/
  | setError (err : Bool)
  | closeFch
  | setStatus
  | closeConn
  | returned

/-- Where a call of `WritePack` is. -/
inductive WritePc where
  | idle
  | called (p : SendPack)
  | locked (p : SendPack)
  /-- The first check is passed, and the second one. -/
  | connected (p : SendPack)
  | noError (p : SendPack)
  /-- In `DelayWritePack`, with the pieces that are left. -/
  | writing (rest : List (List UInt8))
  | wrote (failed : Bool)
  /-- A check has failed. -/
  | refused
  /-- The lock is free, and the token is not sent. -/
  | sending (failed : Bool)
  | closing (pc : ClosePc)
  | returned

/-- Where the flusher is. -/
inductive FlushPc where
  | head
  | receiving
  /-- A token was received. -/
  | received
  | locked
  | connected
  | unlocking (stop : Bool)
  | stopped

structure State (size : ℕ) (γ κ δ : Type) where
  /-- `status == CONNECTED`. -/
  status : Bool
  /-- `writeError != nil`. -/
  writeError : Bool
  fch : Chan Unit 256
  writelock : Bool
  w : BufWriter size
  conn : γ
  writer : κ → WritePc
  flusher : FlushPc
  closer : δ → ClosePc
  /-- The calls of `WritePack` that have had the lock, in this order. -/
  acquired : List κ
  /-- The calls that have passed their checks, in this order, with the frames of their packs. -/
  frames : List (κ × List UInt8)

inductive WriteAct where
  | call (p : SendPack)
  | lock
  | check
  /-- The next call of the writer, or the end of `DelayWritePack`. -/
  | write
  | unlock
  | send
  | close

inductive FlushAct where
  | check
  | receive
  | lock
  | flush
  | unlock

inductive CloseAct where
  | call (err : Bool)
  | next

inductive Act (κ δ : Type) where
  | writer (k : κ) (a : WriteAct)
  | flusher (a : FlushAct)
  | closer (d : δ) (a : CloseAct)

variable {size : ℕ} {γ κ δ : Type}

namespace State

/-- `NewPackQueue`. -/
def init (g : γ) : State size γ κ δ where
  status := true
  writeError := false
  fch := .make
  writelock := false
  w := .new
  conn := g
  writer := fun _ => .idle
  flusher := .head
  closer := fun _ => .idle
  acquired := []
  frames := []

def setWriter [DecidableEq κ] (s : State size γ κ δ) (k : κ) (pc : WritePc) : State size γ κ δ :=
  { s with writer := Function.update s.writer k pc }

def setCloser [DecidableEq δ] (s : State size γ κ δ) (d : δ) (pc : ClosePc) : State size γ κ δ :=
  { s with closer := Function.update s.closer d pc }

end State

/-- `Close`. -/
def closeStep (c : Conn γ) (s : State size γ κ δ) : ClosePc → Option (ClosePc × State size γ κ δ)
  | .setError err => some (.closeFch, { s with writeError := err })
  | .closeFch => some (.setStatus, { s with fch := s.fch.closeRecover })
  | .setStatus => some (.closeConn, { s with status := false })
  | .closeConn => some (.returned, { s with conn := c.close s.conn })
  | .idle | .returned => none

/-- `writeFull`: there is no call for an empty piece. -/
def writeFull (c : Conn γ) (s : State size γ κ δ) (b : List UInt8) : BufWriter size × γ :=
  if b.isEmpty then (s.w, s.conn) else s.w.write c s.conn b

/-- `WritePack`. A send on the closed channel panics, and the deferred function calls `Close`. -/
def writeStep [DecidableEq κ] (c : Conn γ) (s : State size γ κ δ) (k : κ) :
    WritePc → WriteAct → Option (State size γ κ δ)
  | .idle, .call p => some (s.setWriter k (.called p))
  | .called p, .lock =>
    if s.writelock then none
    else some { s.setWriter k (.locked p) with writelock := true, acquired := s.acquired ++ [k] }
  | .locked p, .check => some (s.setWriter k (if s.status then .connected p else .refused))
  | .connected p, .check => some (s.setWriter k (if s.writeError then .refused else .noError p))
  | .noError p, .check =>
    if s.w.available ≤ 0 then some (s.setWriter k .refused)
    else
      some { s.setWriter k (.writing p.pack.pieces) with
        frames := s.frames ++ [(k, p.pack.pieces.flatten)] }
  | .writing [], .write => some (s.setWriter k (.wrote false))
  | .writing (b :: rest), .write =>
    let (w', g') := writeFull c s b
    some { s.setWriter k (if !b.isEmpty && w'.err then .wrote true else .writing rest) with
      w := w', conn := g' }
  | .wrote failed, .unlock => some { s.setWriter k (.sending failed) with writelock := false }
  | .refused, .unlock => some { s.setWriter k .returned with writelock := false }
  | .sending failed, .send =>
    match s.fch.send () with
    | .blocked => none
    | .panic => some (s.setWriter k (.closing (.setError true)))
    | .ok fch' =>
      some { s.setWriter k (if failed then .closing (.setError true) else .returned) with fch := fch' }
  | .closing pc, .close =>
    (closeStep c s pc).map fun (pc', s') =>
      s'.setWriter k (match pc' with | .returned => .returned | pc' => .closing pc')
  | _, _ => none

/-- `Flusher`. -/
def flushStep (c : Conn γ) (s : State size γ κ δ) : FlushPc → FlushAct → Option (State size γ κ δ)
  | .head, .check => some { s with flusher := if s.status then .receiving else .stopped }
  | .receiving, .receive =>
    match s.fch.recv with
    | .ok (some _, fch') => some { s with flusher := .received, fch := fch' }
    | .ok (none, _) => some { s with flusher := .stopped }
    | _ => none
  | .received, .lock =>
    if s.writelock then none else some { s with flusher := .locked, writelock := true }
  | .locked, .check => some { s with flusher := if s.status then .connected else .unlocking true }
  | .connected, .flush =>
    if s.w.buf.length > 0 then
      let (w', g') := s.w.flush c s.conn
      some { s with flusher := .unlocking w'.err, w := w', conn := g' }
    else some { s with flusher := .unlocking false }
  | .unlocking stop, .unlock =>
    some { s with flusher := if stop then .stopped else .head, writelock := false }
  | _, _ => none

/-- One step of a writer, of the flusher or of a call of `Close` from elsewhere. -/
def step [DecidableEq κ] [DecidableEq δ] (c : Conn γ) (s : State size γ κ δ) :
    Act κ δ → Option (State size γ κ δ)
  | .writer k a => writeStep c s k (s.writer k) a
  | .flusher a => flushStep c s s.flusher a
  | .closer d (.call err) =>
    match s.closer d with
    | .idle => some (s.setCloser d (.setError err))
    | _ => none
  | .closer d .next => (closeStep c s (s.closer d)).map fun (pc', s') => s'.setCloser d pc'

/-! ## What a step can do -/

section Inversion

variable {c : Conn γ} {s s' : State size γ κ δ}

/-- The steps of `Close`. -/
inductive CloseStep (c : Conn γ) (s : State size γ κ δ) : ClosePc → ClosePc → State size γ κ δ → Prop
    where
  | setError (err : Bool) : CloseStep c s (.setError err) .closeFch { s with writeError := err }
  | closeFch : CloseStep c s .closeFch .setStatus { s with fch := s.fch.closeRecover }
  | setStatus : CloseStep c s .setStatus .closeConn { s with status := false }
  | closeConn : CloseStep c s .closeConn .returned { s with conn := c.close s.conn }

theorem closeStep_eq_some {pc pc' : ClosePc} (h : closeStep c s pc = some (pc', s')) :
    CloseStep c s pc pc' s' := by
  cases pc with
  | setError err =>
    cases h
    exact .setError err
  | closeFch =>
    cases h
    exact .closeFch
  | setStatus =>
    cases h
    exact .setStatus
  | closeConn =>
    cases h
    exact .closeConn
  | idle => cases h
  | returned => cases h

/-- The steps of `WritePack`. -/
inductive WriteStep [DecidableEq κ] (c : Conn γ) (s : State size γ κ δ) (k : κ) :
    WritePc → State size γ κ δ → Prop where
  | call (p : SendPack) : WriteStep c s k .idle (s.setWriter k (.called p))
  | lock (p : SendPack) (hfree : s.writelock = false) :
      WriteStep c s k (.called p) { s.setWriter k (.locked p) with
        writelock := true, acquired := s.acquired ++ [k] }
  | disconnected (p : SendPack) (hstatus : s.status = false) :
      WriteStep c s k (.locked p) (s.setWriter k .refused)
  | connected (p : SendPack) (hstatus : s.status = true) :
      WriteStep c s k (.locked p) (s.setWriter k (.connected p))
  | error (p : SendPack) (herr : s.writeError = true) :
      WriteStep c s k (.connected p) (s.setWriter k .refused)
  | noError (p : SendPack) (herr : s.writeError = false) :
      WriteStep c s k (.connected p) (s.setWriter k (.noError p))
  | full (p : SendPack) (hfull : s.w.available ≤ 0) :
      WriteStep c s k (.noError p) (s.setWriter k .refused)
  | begin (p : SendPack) (hroom : ¬ s.w.available ≤ 0) :
      WriteStep c s k (.noError p) { s.setWriter k (.writing p.pack.pieces) with
        frames := s.frames ++ [(k, p.pack.pieces.flatten)] }
  | finish : WriteStep c s k (.writing []) (s.setWriter k (.wrote false))
  /-- There is no call of the writer for an empty piece. -/
  | skip (rest : List (List UInt8)) :
      WriteStep c s k (.writing ([] :: rest)) (s.setWriter k (.writing rest))
  | write (b : List UInt8) (rest : List (List UInt8)) {w' : BufWriter size} {g' : γ}
      (hwrite : s.w.write c s.conn b = (w', g')) (herr : w'.err = false) :
      WriteStep c s k (.writing (b :: rest))
        { s.setWriter k (.writing rest) with w := w', conn := g' }
  | fail (b : List UInt8) (rest : List (List UInt8)) {w' : BufWriter size} {g' : γ}
      (hwrite : s.w.write c s.conn b = (w', g')) (herr : w'.err = true) :
      WriteStep c s k (.writing (b :: rest))
        { s.setWriter k (.wrote true) with w := w', conn := g' }
  | unlock (failed : Bool) :
      WriteStep c s k (.wrote failed) { s.setWriter k (.sending failed) with writelock := false }
  | leave : WriteStep c s k .refused { s.setWriter k .returned with writelock := false }
  | panic (failed : Bool) (hclosed : s.fch.closed = true) :
      WriteStep c s k (.sending failed) (s.setWriter k (.closing (.setError true)))
  | send (failed : Bool) {fch' : Chan Unit 256} (hsend : s.fch.send () = .ok fch') :
      WriteStep c s k (.sending failed)
        { s.setWriter k (if failed then .closing (.setError true) else .returned) with fch := fch' }
  | close {pc pc' : ClosePc} {s' : State size γ κ δ} (h : CloseStep c s pc pc' s') {wpc : WritePc}
      (hwpc : wpc = .closing pc' ∨ wpc = .returned) :
      WriteStep c s k (.closing pc) (s'.setWriter k wpc)

theorem writeStep_eq_some [DecidableEq κ] {k : κ} {pc : WritePc} {a : WriteAct}
    (h : writeStep c s k pc a = some s') : WriteStep c s k pc s' := by
  unfold writeStep at h
  split at h
  · obtain rfl := Option.some.inj h
    exact .call _
  · split at h
    · cases h
    · next hfree =>
      obtain rfl := Option.some.inj h
      exact .lock _ (Bool.eq_false_of_not_eq_true hfree)
  · obtain rfl := Option.some.inj h
    cases hstatus : s.status with
    | true => exact .connected _ hstatus
    | false => exact .disconnected _ hstatus
  · obtain rfl := Option.some.inj h
    cases herr : s.writeError with
    | true => exact .error _ herr
    | false => exact .noError _ herr
  · split at h
    · next hfull =>
      obtain rfl := Option.some.inj h
      exact .full _ hfull
    · next hroom =>
      obtain rfl := Option.some.inj h
      exact .begin _ hroom
  · obtain rfl := Option.some.inj h
    exact .finish
  · next b rest =>
    cases b with
    | nil =>
      obtain rfl := Option.some.inj h
      exact .skip rest
    | cons x b =>
      have hwrite : writeFull c s (x :: b) = s.w.write c s.conn (x :: b) := rfl
      rw [hwrite, List.isEmpty_cons, Bool.not_false] at h
      simp only [Bool.true_and] at h
      by_cases herr : (s.w.write c s.conn (x :: b)).1.err = true
      · rw [if_pos herr] at h
        obtain rfl := Option.some.inj h
        exact .fail (x :: b) rest rfl herr
      · rw [if_neg herr] at h
        obtain rfl := Option.some.inj h
        exact .write (x :: b) rest rfl (Bool.eq_false_of_not_eq_true herr)
  · obtain rfl := Option.some.inj h
    exact .unlock _
  · obtain rfl := Option.some.inj h
    exact .leave
  · split at h
    · cases h
    · next hpanic =>
      obtain rfl := Option.some.inj h
      exact .panic _ (Chan.send_eq_panic.mp hpanic)
    · next hsend =>
      obtain rfl := Option.some.inj h
      exact .send _ hsend
  · obtain ⟨⟨pc', s₁⟩, hclose, rfl⟩ := Option.map_eq_some_iff.mp h
    refine .close (closeStep_eq_some hclose) ?_
    cases pc' with
    | returned => exact .inr rfl
    | _ => exact .inl rfl
  · cases h

/-- The steps of the flusher. -/
inductive FlushStep (c : Conn γ) (s : State size γ κ δ) : FlushPc → State size γ κ δ → Prop where
  | disconnected (hstatus : s.status = false) : FlushStep c s .head { s with flusher := .stopped }
  | wait (hstatus : s.status = true) : FlushStep c s .head { s with flusher := .receiving }
  | receive {fch' : Chan Unit 256} (hrecv : s.fch.recv = .ok (some (), fch')) :
      FlushStep c s .receiving { s with flusher := .received, fch := fch' }
  | closed (hclosed : s.fch.closed = true) : FlushStep c s .receiving { s with flusher := .stopped }
  | lock (hfree : s.writelock = false) :
      FlushStep c s .received { s with flusher := .locked, writelock := true }
  | leave (hstatus : s.status = false) : FlushStep c s .locked { s with flusher := .unlocking true }
  | connected (hstatus : s.status = true) : FlushStep c s .locked { s with flusher := .connected }
  | empty (hbuf : s.w.buf = []) : FlushStep c s .connected { s with flusher := .unlocking false }
  | flush {w' : BufWriter size} {g' : γ} (hflush : s.w.flush c s.conn = (w', g')) :
      FlushStep c s .connected { s with flusher := .unlocking w'.err, w := w', conn := g' }
  | unlock (stop : Bool) :
      FlushStep c s (.unlocking stop)
        { s with flusher := if stop then .stopped else .head, writelock := false }

theorem flushStep_eq_some {pc : FlushPc} {a : FlushAct} (h : flushStep c s pc a = some s') :
    FlushStep c s pc s' := by
  unfold flushStep at h
  split at h
  · by_cases hstatus : s.status = true
    · rw [if_pos hstatus] at h
      obtain rfl := Option.some.inj h
      exact .wait hstatus
    · rw [if_neg hstatus] at h
      obtain rfl := Option.some.inj h
      exact .disconnected (Bool.eq_false_of_not_eq_true hstatus)
  · split at h
    · next hrecv =>
      obtain rfl := Option.some.inj h
      exact .receive hrecv
    · next hrecv =>
      obtain rfl := Option.some.inj h
      exact .closed (Chan.recv_eq_closed hrecv).2
    · cases h
  · split at h
    · cases h
    · next hfree =>
      obtain rfl := Option.some.inj h
      exact .lock (Bool.eq_false_of_not_eq_true hfree)
  · by_cases hstatus : s.status = true
    · rw [if_pos hstatus] at h
      obtain rfl := Option.some.inj h
      exact .connected hstatus
    · rw [if_neg hstatus] at h
      obtain rfl := Option.some.inj h
      exact .leave (Bool.eq_false_of_not_eq_true hstatus)
  · split at h
    · obtain rfl := Option.some.inj h
      exact .flush rfl
    · next hbuf =>
      obtain rfl := Option.some.inj h
      exact .empty (List.length_eq_zero_iff.mp (Nat.eq_zero_of_not_pos hbuf))
  · obtain rfl := Option.some.inj h
    exact .unlock _
  · cases h

end Inversion

end PackQueue

end Vmqant.Mqtt
