import Vmqant.Common.Counts
import Vmqant.Log.FlushProtocol

/-!
# Flush and Close return

A flush goes on while messages are sent. When no more are sent, and no more calls are made, each step does
some of the work that is left, and a call that is running can always go on or is waited for by a goroutine
that can.
-/

namespace Vmqant.Logs

open Lts

variable {μ δ : Type} {msgChanLen : ℕ}

/-- How many steps a call is from its end, with what it makes the goroutine do. -/
def CallPc.rank : CallPc → ℕ
  | .idle => 0
  | .passed _ _ => 1
  | .waiting _ _ => 2
  | .signalling _ _ => 6

def LoggerPc.rank : LoggerPc μ → ℕ
  | .select | .ended => 0
  | .writing _ | .done _ => 1
  | .flushing _ => 2
  | .flushWriting _ _ => 3

namespace BeeLogger

variable [DecidableEq δ]

/-- The steps that are left when no more messages are sent and no more calls are made. -/
def settle (s : BeeLogger μ δ msgChanLen) : LogAct μ δ → Option (BeeLogger μ δ msgChanLen)
  | .send _ | .begin _ _ => none
  | a => s.step a

omit [DecidableEq δ] in
/-- An upper bound for the steps that are left. -/
def work [Fintype δ] (s : BeeLogger μ δ msgChanLen) : ℕ :=
  2 * s.msgChan.buf.length + 3 * s.signalChan.buf.length + s.logger.rank + ∑ d, (s.calls d).rank

variable {s s' : BeeLogger μ δ msgChanLen}

theorem settle_eq_some {a : LogAct μ δ} (h : s.settle a = some s') : s.step a = some s' ∧ s.Proper a := by
  cases a with
  | send lm => cases h
  | begin d sg => cases h
  | call d | recvMsg | recvSignal | logger => exact ⟨h, trivial⟩

theorem settle_call (h : Inv s) (d : δ) : s.settle (.call d) = s.callStep d (s.calls d) :=
  if_neg (Bool.eq_false_iff.mp h.safe)

theorem settle_logger (h : Inv s) : s.settle .logger = s.loggerStep s.logger :=
  if_neg (Bool.eq_false_iff.mp h.safe)

omit [DecidableEq δ] in
/-- The goroutine is never stuck outside its select. -/
theorem exists_loggerStep (hmode : s.logger.mode ≠ .ended) (hselect : s.logger ≠ .select) :
    ∃ s', s.loggerStep s.logger = some s' := by
  unfold loggerStep
  cases hpc : s.logger with
  | select => exact absurd hpc hselect
  | ended => exact absurd (by rw [hpc]; rfl) hmode
  | writing bm => exact ⟨_, rfl⟩
  | flushing sg =>
    dsimp only
    split <;> exact ⟨_, rfl⟩
  | flushWriting sg bm => exact ⟨_, rfl⟩
  | done sg =>
    dsimp only
    split <;> exact ⟨_, rfl⟩

/-- A call that is running goes on, or the goroutine does. -/
theorem exists_settle (h : Inv s) {d : δ} (hd : s.calls d ≠ .idle) : ∃ a s', s.settle a = some s' := by
  obtain ⟨-, hp⟩ := h.phase_of_call hd
  have hcall : ∀ x, s.callStep d (s.calls d) = some x → ∃ a s', s.settle a = some s' :=
    fun x hx => ⟨.call d, x, (settle_call h d).trans hx⟩
  have hlogger : s.logger.mode ≠ .ended → s.logger ≠ .select → ∃ a s', s.settle a = some s' := by
    intro hmode hselect
    obtain ⟨s', hs'⟩ := exists_loggerStep hmode hselect
    exact ⟨.logger, s', (settle_logger h).trans hs'⟩
  generalize hpc : s.calls d = pc at hp hcall hd
  cases hp with
  | resting | closed => exact absurd rfl hd
  | @signalling sg before ho hw hb hm hn =>
    obtain ⟨c, hsend⟩ := Chan.send_of_nil sg ho.signalChan hb
    refine hcall ({ s with signalChan := c }.setCall d (.waiting sg before)) ?_
    unfold callStep
    dsimp only
    rw [hsend]
  | @signalled sg before ho hw hb hm hn =>
    by_cases hselect : s.logger = .select
    · obtain ⟨sg', c, hrecv⟩ := Chan.recv_of_ne_nil (c := s.signalChan) (by rw [hb]; exact List.cons_ne_nil _ _)
      refine ⟨.recvSignal, { s with signalChan := c, logger := .flushing sg' }, ?_⟩
      refine (if_neg (Bool.eq_false_iff.mp h.safe)).trans ?_
      rw [hselect, hrecv]
    · exact hlogger (by rw [hm]; nofun) hselect
  | flushing ho hw hb hm hn =>
    refine hlogger (by rw [hm]; nofun) fun hselect => ?_
    rw [hselect] at hm
    cases hm
  | done ho hw hb hm hf =>
    refine hlogger (by rw [hm]; nofun) fun hselect => ?_
    rw [hselect] at hm
    cases hm
  | acked ho hw hb hm hf => exact hcall _ (if_pos hw)
  | @passed sg before ho hw hb hm hf =>
    cases sg with
    | flush => exact hcall _ rfl
    | close =>
      refine hcall ({ s with
        msgChan := s.msgChan.closeRecover, signalChan := s.signalChan.closeRecover }.setCall d .idle) ?_
      unfold callStep
      dsimp only
      rw [ho.msgChan, ho.signalChan, Bool.or_self, if_neg Bool.false_ne_true]

/-! ## The work -/

section Work

variable [Fintype δ]

/-- A call gets closer to its end by as much as its step gives the goroutine to do, and more. -/
theorem work_setCall_lt {d : δ} (pc : CallPc) (hcalls : s'.calls = Function.update s.calls d pc)
    (hlt : 2 * s'.msgChan.buf.length + 3 * s'.signalChan.buf.length + s'.logger.rank + pc.rank
      < 2 * s.msgChan.buf.length + 3 * s.signalChan.buf.length + s.logger.rank + (s.calls d).rank) :
    s'.work < s.work := by
  have hsum := Counts.sum_update CallPc.rank s.calls d pc
  unfold work
  rw [hcalls]
  omega

omit [DecidableEq δ] in
/-- The goroutine does some of its work. -/
theorem work_logger_lt (hcalls : s'.calls = s.calls)
    (hlt : 2 * s'.msgChan.buf.length + 3 * s'.signalChan.buf.length + s'.logger.rank
      < 2 * s.msgChan.buf.length + 3 * s.signalChan.buf.length + s.logger.rank) : s'.work < s.work := by
  unfold work
  rw [hcalls]
  omega

omit [DecidableEq δ] in
theorem loggerStep_work (h : s.loggerStep s.logger = some s') (hsafe : s'.panicked = false) :
    s'.work < s.work := by
  unfold loggerStep at h
  split at h
  · cases h
  · cases h
  · next bm hpc =>
    cases h
    exact work_logger_lt rfl (by rw [hpc]; simp [LoggerPc.rank])
  · next sg hpc =>
    split at h
    · next bm c hrecv =>
      cases h
      have hlen := congrArg List.length (Chan.recv_eq_value hrecv).1
      refine work_logger_lt rfl ?_
      rw [hpc, hlen]
      simp only [LoggerPc.rank, List.length_cons]
      omega
    · cases h
      exact work_logger_lt rfl (by rw [hpc]; simp [LoggerPc.rank])
  · next sg bm hpc =>
    cases h
    exact work_logger_lt rfl (by rw [hpc]; simp [LoggerPc.rank])
  · next sg hpc =>
    split at h <;> cases h
    · cases hsafe
    · refine work_logger_lt rfl ?_
      rw [hpc]
      dsimp only
      split <;> simp [LoggerPc.rank]

theorem callStep_work {d : δ} (h : s.callStep d (s.calls d) = some s') (hsafe : s'.panicked = false) :
    s'.work < s.work := by
  unfold callStep at h
  split at h
  · cases h
  · next sg before hpc =>
    split at h
    · next c hsend =>
      cases h
      have hlen := congrArg List.length (Chan.send_eq_ok hsend).2.1
      refine work_setCall_lt (.waiting sg before) rfl ?_
      rw [hpc]
      simp only [setCall, CallPc.rank, hlen, List.length_append, List.length_singleton]
      omega
    · cases h
    · cases h
      cases hsafe
  · next sg before hpc =>
    split at h <;> cases h
    exact work_setCall_lt (.passed sg before) rfl (by rw [hpc]; simp [setCall, CallPc.rank])
  · next before hpc =>
    cases h
    exact work_setCall_lt .idle rfl (by rw [hpc]; simp [setCall, CallPc.rank])
  · next before hpc =>
    split at h <;> cases h
    · cases hsafe
    · refine work_setCall_lt .idle rfl ?_
      rw [hpc]
      simp [setCall, CallPc.rank, Chan.closeRecover]

theorem settle_work {a : LogAct μ δ} (h : Inv s) (hstep : s.settle a = some s') :
    Inv s' ∧ s'.work < s.work := by
  obtain ⟨hs', hproper⟩ := settle_eq_some hstep
  have h' : Inv s' := h.step hproper hs'
  refine ⟨h', ?_⟩
  unfold step at hs'
  rw [if_neg (Bool.eq_false_iff.mp h.safe)] at hs'
  cases a with
  | send lm => cases hstep
  | begin d sg => cases hstep
  | call d => exact callStep_work hs' h'.safe
  | recvMsg =>
    dsimp only at hs'
    split at hs'
    · next bm c hpc hrecv =>
      cases hs'
      have hlen := congrArg List.length (Chan.recv_eq_value hrecv).1
      refine work_logger_lt rfl ?_
      rw [hpc, hlen]
      simp only [LoggerPc.rank, List.length_cons]
      omega
    · cases hs'
      cases h'.safe
    · cases hs'
  | recvSignal =>
    dsimp only at hs'
    split at hs'
    · next sg c hpc hrecv =>
      cases hs'
      have hlen := congrArg List.length (Chan.recv_eq_value hrecv).1
      refine work_logger_lt rfl ?_
      rw [hpc, hlen]
      simp only [LoggerPc.rank, List.length_cons]
      omega
    · next c hpc hrecv =>
      obtain ⟨o, -, hp⟩ := h.phase
      have hopen := (hp.open_of_quiet (by rw [hpc]; rfl)).signalChan
      cases hopen.symm.trans (Chan.recv_eq_closed hrecv).2
    · cases hs'
  | logger => exact loggerStep_work hs' h'.safe

/-- When no more messages are sent and no more calls are made, every run comes to its end after as many steps
as there is work, and there all calls have returned. -/
theorem calls_return {as : List (LogAct μ δ)}
    (hproper : Along step Proper (start : BeeLogger μ δ msgChanLen) as)
    (hrun : run step (start : BeeLogger μ δ msgChanLen) as = some s) :
    (∀ bs s', run settle s bs = some s' → bs.length ≤ s.work ∧ (Final settle s' → ∀ d, s'.calls d = .idle)) ∧
      ∃ bs s', run settle s bs = some s' ∧ Final settle s' := by
  have h := inv_of_run hproper hrun
  refine ⟨fun bs s' hbs => ⟨run_length_le (fun _ _ _ => settle_work) h hbs, fun hfinal d => ?_⟩,
    exists_final (fun _ _ _ => settle_work) h⟩
  have h' : Inv s' := run_invariant (C := fun _ _ => True) (fun _ _ _ h _ hstep => (settle_work h hstep).1) h
    (along_of_mem (fun _ _ _ => trivial) s) hbs
  by_contra hd
  obtain ⟨a, s'', hstep⟩ := exists_settle h' hd
  cases (hfinal a).symm.trans hstep

/-- A `Close` that has been called. -/
theorem calls_return_close :
    let as : List (LogAct ℕ Unit) := [.send 1, .begin () .close]
    ∃ s : BeeLogger ℕ Unit 2, run step start as = some s ∧
      ∃ bs s', run settle s bs = some s' ∧ Final settle s' ∧ s'.calls () = .idle := by
  intro as
  have hsome : (run step (start : BeeLogger ℕ Unit 2) as).isSome = true := by decide
  obtain ⟨s, hrun⟩ := Option.isSome_iff_exists.mp hsome
  obtain ⟨hends, bs, s', hbs, hfinal⟩ := calls_return (by decide) hrun
  exact ⟨s, hrun, bs, s', hbs, hfinal, (hends bs s' hbs).2 hfinal ()⟩

end Work

end BeeLogger

end Vmqant.Logs
