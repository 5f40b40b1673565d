import Vmqant.Common.Chan
import Vmqant.Common.Lts

/-!
# The asynchronous logger

Reference: `log/beego/log.go`, `Async`, `writeMsg`, `startLogger`, `Flush`, `Close` and `flush`.

`Async` starts a goroutine that writes the messages of a channel to the outputs. `Flush` and `Close` send it
a signal and wait for it on a wait group that stands at one: the goroutine counts it down when it has written
what is in the channel, and `Flush` puts it up again. A message is what `writeMsg` has made of its arguments;
the outputs all get the same, so `written` stands for each of them.
-/

namespace Vmqant.Logs

open Lts

/-- What is sent over `signalChan`. -/
inductive Signal where
  | flush
  | close
deriving DecidableEq

/-- Where the goroutine of `startLogger` is. -/
inductive LoggerPc (μ : Type) where
  | select
  /-- Before `writeToLoggers`. -/
  | writing (bm : μ)
  /-- In the loop of `flush`. -/
  | flushing (sg : Signal)
  | flushWriting (sg : Signal) (bm : μ)
  /-- Before `wg.Done()`. -/
  | done (sg : Signal)
  | ended

/-- Where a call of `Flush` or `Close` is. Each call carries the number of messages that had been sent when it
was made. -/
inductive CallPc where
  | idle
  | signalling (sg : Signal) (before : ℕ)
  /-- At `wg.Wait()`. -/
  | waiting (sg : Signal) (before : ℕ)
  /-- `wg.Wait()` has returned. -/
  | passed (sg : Signal) (before : ℕ)
deriving DecidableEq

/-- A logger with messages `μ` and callers `δ`, after `Async`. The messages that have been sent are kept as a
history. -/
structure BeeLogger (μ δ : Type) (msgChanLen : ℕ) where
  msgChan : Chan μ msgChanLen
  signalChan : Chan Signal 1
  wg : ℤ
  logger : LoggerPc μ
  calls : δ → CallPc
  /-- The outputs. -/
  written : List μ
  /-- How much was written when the outputs were flushed last. -/
  flushed : ℕ
  destroyed : Bool
  panicked : Bool
  sent : List μ

inductive LogAct (μ δ : Type) where
  /-- The send of `writeMsg`. -/
  | send (lm : μ)
  /-- `Flush` or `Close` is called. -/
  | begin (d : δ) (sg : Signal)
  /-- The next step of a call. -/
  | call (d : δ)
  /-- The select of the goroutine takes a message. -/
  | recvMsg
  /-- It takes a signal. -/
  | recvSignal
  /-- The next step of the goroutine, where it is not at the select. -/
  | logger

variable {μ δ : Type} {msgChanLen : ℕ}

/-- The message the goroutine has taken and not written yet. -/
def LoggerPc.inFlight : LoggerPc μ → List μ
  | .writing bm | .flushWriting _ bm => [bm]
  | .select | .flushing _ | .done _ | .ended => []

namespace BeeLogger

/-- After `Async`. -/
def start : BeeLogger μ δ msgChanLen where
  msgChan := .make
  signalChan := .make
  wg := 1
  logger := .select
  calls := fun _ => .idle
  written := []
  flushed := 0
  destroyed := false
  panicked := false
  sent := []

def panic (s : BeeLogger μ δ msgChanLen) : BeeLogger μ δ msgChanLen := { s with panicked := true }

/-- The goroutine, where it is not at the select. -/
def loggerStep (s : BeeLogger μ δ msgChanLen) : LoggerPc μ → Option (BeeLogger μ δ msgChanLen)
  | .select | .ended => none
  | .writing bm => some { s with written := s.written ++ [bm], logger := .select }
  | .flushing sg =>
    match s.msgChan.recv with
    | .ok (some bm, c) => some { s with msgChan := c, logger := .flushWriting sg bm }
    | _ => some { s with
        flushed := s.written.length
        destroyed := s.destroyed || sg = .close
        logger := .done sg }
  | .flushWriting sg bm => some { s with written := s.written ++ [bm], logger := .flushing sg }
  | .done sg =>
    if s.wg ≤ 0 then some s.panic
    else some { s with wg := s.wg - 1, logger := if sg = .close then .ended else .select }

section Steps

variable [DecidableEq δ]

def setCall (s : BeeLogger μ δ msgChanLen) (d : δ) (pc : CallPc) : BeeLogger μ δ msgChanLen :=
  { s with calls := Function.update s.calls d pc }

/-- `Flush` and `Close`. -/
def callStep (s : BeeLogger μ δ msgChanLen) (d : δ) : CallPc → Option (BeeLogger μ δ msgChanLen)
  | .idle => none
  | .signalling sg before =>
    match s.signalChan.send sg with
    | .ok c => some ({ s with signalChan := c }.setCall d (.waiting sg before))
    | .blocked => none
    | .panic => some s.panic
  | .waiting sg before => if s.wg = 0 then some (s.setCall d (.passed sg before)) else none
  | .passed .flush _ => some ({ s with wg := s.wg + 1 }.setCall d .idle)
  | .passed .close _ =>
    if s.msgChan.closed || s.signalChan.closed then some s.panic
    else some ({ s with
      msgChan := s.msgChan.closeRecover, signalChan := s.signalChan.closeRecover }.setCall d .idle)

def step (s : BeeLogger μ δ msgChanLen) (a : LogAct μ δ) : Option (BeeLogger μ δ msgChanLen) :=
  if s.panicked then none
  else
    match a with
    | .send lm =>
      match s.msgChan.send lm with
      | .ok c => some { s with msgChan := c, sent := s.sent ++ [lm] }
      | .blocked => none
      | .panic => some s.panic
    | .begin d sg =>
      match s.calls d with
      | .idle => some (s.setCall d (.signalling sg s.sent.length))
      | _ => none
    | .call d => s.callStep d (s.calls d)
    | .recvMsg =>
      match s.logger, s.msgChan.recv with
      | .select, .ok (some bm, c) => some { s with msgChan := c, logger := .writing bm }
      -- a closed channel gives a nil message
      | .select, .ok (none, _) => some s.panic
      | _, _ => none
    | .recvSignal =>
      match s.logger, s.signalChan.recv with
      | .select, .ok (some sg, c) => some { s with signalChan := c, logger := .flushing sg }
      -- a closed channel gives the empty string, which is not `close`
      | .select, .ok (none, _) => some { s with logger := .flushing .flush }
      | _, _ => none
    | .logger => s.loggerStep s.logger

end Steps

/-- How the logger is to be used: nothing is sent after `Close`, and `Flush` and `Close` are not called while a
call of one of them is running, nor after `Close`. -/
def Proper (s : BeeLogger μ δ msgChanLen) : LogAct μ δ → Prop
  | .send _ => s.msgChan.closed = false
  | .begin _ _ => s.msgChan.closed = false ∧ ∀ d, s.calls d = .idle
  | .call _ | .recvMsg | .recvSignal | .logger => True

instance [Fintype δ] (s : BeeLogger μ δ msgChanLen) : DecidablePred s.Proper
  | .send _ => inferInstanceAs (Decidable (_ = _))
  | .begin _ _ => inferInstanceAs (Decidable (_ ∧ _))
  | .call _ | .recvMsg | .recvSignal | .logger => isTrue trivial

end BeeLogger

end Vmqant.Logs
