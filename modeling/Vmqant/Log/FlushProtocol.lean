import Vmqant.Log.AsyncLogger

/-!
# Flush waits for what was sent

With one call of `Flush` or `Close` at a time the wait group is a handshake. The call is at one of a few
phases with the goroutine: it has not signalled, the signal is in the channel, the goroutine is flushing for
it, or the goroutine has counted down. A flush ends when the channel is empty, so when everything that had
been sent is written.
-/

namespace Vmqant.Logs

open Lts

variable {μ δ : Type} {msgChanLen : ℕ}

/-- What the goroutine is about. -/
inductive Mode where
  | quiet
  | flushing (sg : Signal)
  | done (sg : Signal)
  | ended

def LoggerPc.mode : LoggerPc μ → Mode
  | .select | .writing _ => .quiet
  | .flushing sg | .flushWriting sg _ => .flushing sg
  | .done sg => .done sg
  | .ended => .ended

namespace BeeLogger

/-- The goroutine has flushed for a call, and destroyed the outputs if it is a `Close`. -/
structure Flushed (s : BeeLogger μ δ msgChanLen) (sg : Signal) (before : ℕ) : Prop where
  flushed : before ≤ s.flushed
  destroyed : sg = .close → s.destroyed = true

/-- Neither channel has been closed. -/
structure Open (s : BeeLogger μ δ msgChanLen) : Prop where
  msgChan : s.msgChan.closed = false
  signalChan : s.signalChan.closed = false

/-- The places where the only call that is running, if there is one, and the goroutine can be together. -/
inductive Phase (s : BeeLogger μ δ msgChanLen) : CallPc → Prop
  | resting (hopen : s.Open) (hwg : s.wg = 1) (hsignal : s.signalChan.buf = [])
      (hmode : s.logger.mode = .quiet) : Phase s .idle
  | closed (hclosed : s.msgChan.closed = true) (hmode : s.logger.mode = .ended) : Phase s .idle
  | signalling {sg : Signal} {before : ℕ} (hopen : s.Open) (hwg : s.wg = 1)
      (hsignal : s.signalChan.buf = []) (hmode : s.logger.mode = .quiet) (hbefore : before ≤ s.sent.length) :
      Phase s (.signalling sg before)
  | signalled {sg : Signal} {before : ℕ} (hopen : s.Open) (hwg : s.wg = 1)
      (hsignal : s.signalChan.buf = [sg]) (hmode : s.logger.mode = .quiet) (hbefore : before ≤ s.sent.length) :
      Phase s (.waiting sg before)
  | flushing {sg : Signal} {before : ℕ} (hopen : s.Open) (hwg : s.wg = 1)
      (hsignal : s.signalChan.buf = []) (hmode : s.logger.mode = .flushing sg)
      (hbefore : before ≤ s.sent.length) : Phase s (.waiting sg before)
  | done {sg : Signal} {before : ℕ} (hopen : s.Open) (hwg : s.wg = 1) (hsignal : s.signalChan.buf = [])
      (hmode : s.logger.mode = .done sg) (hflushed : s.Flushed sg before) : Phase s (.waiting sg before)
  | acked {sg : Signal} {before : ℕ} (hopen : s.Open) (hwg : s.wg = 0) (hsignal : s.signalChan.buf = [])
      (hmode : s.logger.mode = if sg = .close then .ended else .quiet) (hflushed : s.Flushed sg before) :
      Phase s (.waiting sg before)
  | passed {sg : Signal} {before : ℕ} (hopen : s.Open) (hwg : s.wg = 0) (hsignal : s.signalChan.buf = [])
      (hmode : s.logger.mode = if sg = .close then .ended else .quiet) (hflushed : s.Flushed sg before) :
      Phase s (.passed sg before)

variable {s s' : BeeLogger μ δ msgChanLen} {pc : CallPc}

/-- Steps that neither the call nor the signal is about. -/
theorem Phase.mono (h : Phase s pc) (hclosed : s'.msgChan.closed = s.msgChan.closed)
    (hsignal : s'.signalChan = s.signalChan) (hwg : s'.wg = s.wg)
    (hmode : s'.logger.mode = s.logger.mode) (hflushed : s'.flushed = s.flushed)
    (hdestroyed : s'.destroyed = s.destroyed) (hsent : s.sent.length ≤ s'.sent.length) : Phase s' pc := by
  have hopen : s.Open → s'.Open := fun h => ⟨hclosed ▸ h.msgChan, hsignal ▸ h.signalChan⟩
  have hflush : ∀ {sg before}, s.Flushed sg before → s'.Flushed sg before :=
    fun h => ⟨hflushed ▸ h.flushed, fun hsg => hdestroyed ▸ h.destroyed hsg⟩
  cases h with
  | resting ho hw hb hm => exact .resting (hopen ho) (hwg ▸ hw) (hsignal ▸ hb) (hmode ▸ hm)
  | closed hc hm => exact .closed (hclosed ▸ hc) (hmode ▸ hm)
  | signalling ho hw hb hm hn =>
    exact .signalling (hopen ho) (hwg ▸ hw) (hsignal ▸ hb) (hmode ▸ hm) (hn.trans hsent)
  | signalled ho hw hb hm hn =>
    exact .signalled (hopen ho) (hwg ▸ hw) (hsignal ▸ hb) (hmode ▸ hm) (hn.trans hsent)
  | flushing ho hw hb hm hn =>
    exact .flushing (hopen ho) (hwg ▸ hw) (hsignal ▸ hb) (hmode ▸ hm) (hn.trans hsent)
  | done ho hw hb hm hf => exact .done (hopen ho) (hwg ▸ hw) (hsignal ▸ hb) (hmode ▸ hm) (hflush hf)
  | acked ho hw hb hm hf => exact .acked (hopen ho) (hwg ▸ hw) (hsignal ▸ hb) (hmode ▸ hm) (hflush hf)
  | passed ho hw hb hm hf => exact .passed (hopen ho) (hwg ▸ hw) (hsignal ▸ hb) (hmode ▸ hm) (hflush hf)

/-- Messages are written in the order they were sent, none is lost, and at most one call is running, at one of
the phases. -/
structure Inv (s : BeeLogger μ δ msgChanLen) : Prop where
  safe : s.panicked = false
  fifo : s.sent = s.written ++ s.logger.inFlight ++ s.msgChan.buf
  flushed : s.flushed ≤ s.written.length
  phase : ∃ o : Option δ, (∀ d, some d ≠ o → s.calls d = .idle) ∧ Phase s (o.elim .idle s.calls)

theorem inv_start : Inv (start : BeeLogger μ δ msgChanLen) :=
  ⟨rfl, rfl, le_rfl, none, fun _ _ => rfl, .resting ⟨rfl, rfl⟩ rfl rfl rfl⟩

/-- The calls stay where they are. -/
theorem Inv.keep (h : Inv s) (hcalls : s'.calls = s.calls) (hphase : ∀ pc, Phase s pc → Phase s' pc) :
    ∃ o : Option δ, (∀ d, some d ≠ o → s'.calls d = .idle) ∧ Phase s' (o.elim .idle s'.calls) := by
  obtain ⟨o, hidle, hs⟩ := h.phase
  exact ⟨o, hcalls ▸ hidle, hcalls ▸ hphase _ hs⟩

/-! ## The goroutine -/

theorem ended_or_quiet_ne {sg : Signal} {m : Mode} (hm : m = if sg = .close then .ended else .quiet) :
    (∀ sg', m ≠ .flushing sg') ∧ ∀ sg', m ≠ .done sg' := by
  subst hm
  split <;> exact ⟨fun _ => nofun, fun _ => nofun⟩

/-- While the goroutine flushes, a call waits for it. -/
theorem Phase.of_flushing (h : Phase s pc) {sg : Signal} (hmode : s.logger.mode = .flushing sg) :
    ∃ before, pc = .waiting sg before ∧ s.Open ∧ s.wg = 1 ∧ s.signalChan.buf = [] ∧
      before ≤ s.sent.length := by
  cases h with
  | flushing ho hw hb hm hn =>
    obtain rfl : _ = sg := Mode.flushing.inj (hm.symm.trans hmode)
    exact ⟨_, rfl, ho, hw, hb, hn⟩
  | acked ho hw hb hm hf => exact absurd hmode ((ended_or_quiet_ne hm).1 sg)
  | passed ho hw hb hm hf => exact absurd hmode ((ended_or_quiet_ne hm).1 sg)
  | resting ho hw hb hm => cases hm.symm.trans hmode
  | closed hc hm => cases hm.symm.trans hmode
  | signalling ho hw hb hm hn => cases hm.symm.trans hmode
  | signalled ho hw hb hm hn => cases hm.symm.trans hmode
  | done ho hw hb hm hf => cases hm.symm.trans hmode

theorem Phase.of_done (h : Phase s pc) {sg : Signal} (hmode : s.logger.mode = .done sg) :
    ∃ before, pc = .waiting sg before ∧ s.Open ∧ s.wg = 1 ∧ s.signalChan.buf = [] ∧ s.Flushed sg before := by
  cases h with
  | done ho hw hb hm hf =>
    obtain rfl : _ = sg := Mode.done.inj (hm.symm.trans hmode)
    exact ⟨_, rfl, ho, hw, hb, hf⟩
  | acked ho hw hb hm hf => exact absurd hmode ((ended_or_quiet_ne hm).2 sg)
  | passed ho hw hb hm hf => exact absurd hmode ((ended_or_quiet_ne hm).2 sg)
  | resting ho hw hb hm => cases hm.symm.trans hmode
  | closed hc hm => cases hm.symm.trans hmode
  | signalling ho hw hb hm hn => cases hm.symm.trans hmode
  | signalled ho hw hb hm hn => cases hm.symm.trans hmode
  | flushing ho hw hb hm hn => cases hm.symm.trans hmode

theorem Inv.loggerStep (h : Inv s) (hstep : s.loggerStep s.logger = some s') : Inv s' := by
  have hfifo := h.fifo
  have hflushed := h.flushed
  unfold BeeLogger.loggerStep at hstep
  split at hstep
  · cases hstep
  · cases hstep
  · next bm hpc =>
    cases hstep
    rw [hpc, show (LoggerPc.writing bm).inFlight = [bm] from rfl] at hfifo
    refine ⟨h.safe, ?_, ?_, h.keep rfl fun pc hp => hp.mono rfl rfl rfl ?_ rfl rfl le_rfl⟩
    · rw [hfifo]
      exact congrArg (· ++ s.msgChan.buf) (List.append_nil _).symm
    · exact hflushed.trans (by simp)
    · rw [hpc]
      rfl
  · next sg hpc =>
    rw [hpc, show (LoggerPc.flushing sg : LoggerPc μ).inFlight = [] from rfl, List.append_nil] at hfifo
    split at hstep
    · next bm c hrecv =>
      cases hstep
      obtain ⟨hbuf, hclosed⟩ := Chan.recv_eq_value hrecv
      refine ⟨h.safe, ?_, hflushed, h.keep rfl fun pc hp => hp.mono hclosed rfl rfl ?_ rfl rfl le_rfl⟩
      · rw [hfifo, hbuf]
        exact (List.append_assoc _ [bm] c.buf).symm
      · rw [hpc]
        rfl
    · next hrecv =>
      cases hstep
      -- nothing is left in the channel
      have hnil : s.msgChan.buf = [] := by
        by_contra hne
        obtain ⟨bm, c, hc⟩ := Chan.recv_of_ne_nil hne
        exact hrecv bm c hc
      rw [hnil, List.append_nil] at hfifo
      refine ⟨h.safe, ?_, le_rfl, h.keep rfl fun pc hp => ?_⟩
      · rw [hfifo, hnil]
        simp [LoggerPc.inFlight]
      · obtain ⟨before, rfl, ho, hw, hb, hn⟩ := hp.of_flushing (by rw [hpc]; rfl)
        refine .done ⟨ho.msgChan, ho.signalChan⟩ hw hb rfl ⟨hfifo ▸ hn, ?_⟩
        rintro rfl
        simp
  · next sg bm hpc =>
    cases hstep
    rw [hpc, show (LoggerPc.flushWriting sg bm).inFlight = [bm] from rfl] at hfifo
    refine ⟨h.safe, ?_, ?_, h.keep rfl fun pc hp => hp.mono rfl rfl rfl ?_ rfl rfl le_rfl⟩
    · rw [hfifo]
      exact congrArg (· ++ s.msgChan.buf) (List.append_nil _).symm
    · exact hflushed.trans (by simp)
    · rw [hpc]
      rfl
  · next sg hpc =>
    obtain ⟨o, hidle, hp⟩ := h.phase
    obtain ⟨before, hcall, ho, hw, hb, hf⟩ := hp.of_done (by rw [hpc]; rfl)
    rw [if_neg (by omega)] at hstep
    cases hstep
    rw [hpc] at hfifo
    refine ⟨h.safe, ?_, hflushed, o, hidle, ?_⟩
    · rw [hfifo]
      dsimp only
      split <;> rfl
    · rw [hcall]
      refine .acked ⟨ho.msgChan, ho.signalChan⟩ ?_ hb ?_ ⟨hf.flushed, hf.destroyed⟩
      · show s.wg - 1 = 0
        omega
      · dsimp only
        split <;> rfl

/-- While the goroutine is at its select, no channel is closed. -/
theorem Phase.open_of_quiet (h : Phase s pc) (hmode : s.logger.mode = .quiet) : s.Open := by
  cases h with
  | closed hc hm => cases hm.symm.trans hmode
  | resting ho | signalling ho | signalled ho | flushing ho | done ho | acked ho | passed ho => exact ho

/-- A signal in the channel is the one of the call that waits. -/
theorem Phase.of_signal (h : Phase s pc) (hmode : s.logger.mode = .quiet) {sg : Signal} {rest : List Signal}
    (hsignal : s.signalChan.buf = sg :: rest) :
    ∃ before, pc = .waiting sg before ∧ rest = [] ∧ s.wg = 1 ∧ before ≤ s.sent.length := by
  cases h with
  | signalled ho hw hb hm hn =>
    obtain ⟨rfl, rfl⟩ := List.cons.inj (hb.symm.trans hsignal)
    exact ⟨_, rfl, rfl, hw, hn⟩
  | closed hc hm => cases hm.symm.trans hmode
  | flushing ho hw hb | done ho hw hb | acked ho hw hb | passed ho hw hb | resting ho hw hb
  | signalling ho hw hb => cases hb.symm.trans hsignal

theorem Inv.recvMsg (h : Inv s) {bm : μ} {c : Chan μ msgChanLen} (hpc : s.logger = .select)
    (hrecv : s.msgChan.recv = .ok (some bm, c)) : Inv { s with msgChan := c, logger := .writing bm } := by
  have hfifo := h.fifo
  obtain ⟨hbuf, hclosed⟩ := Chan.recv_eq_value hrecv
  rw [hpc, hbuf, show (LoggerPc.select : LoggerPc μ).inFlight = [] from rfl, List.append_nil] at hfifo
  refine ⟨h.safe, ?_, h.flushed, h.keep rfl fun pc hp => hp.mono hclosed rfl rfl ?_ rfl rfl le_rfl⟩
  · rw [hfifo]
    exact (List.append_assoc _ [bm] c.buf).symm
  · rw [hpc]
    rfl

theorem Inv.recvSignal (h : Inv s) {sg : Signal} {c : Chan Signal 1} (hpc : s.logger = .select)
    (hrecv : s.signalChan.recv = .ok (some sg, c)) :
    Inv { s with signalChan := c, logger := .flushing sg } := by
  have hfifo := h.fifo
  have hmode : s.logger.mode = .quiet := by rw [hpc]; rfl
  obtain ⟨hbuf, hclosed⟩ := Chan.recv_eq_value hrecv
  rw [hpc] at hfifo
  refine ⟨h.safe, hfifo, h.flushed, h.keep rfl fun pc hp => ?_⟩
  have hopen := hp.open_of_quiet hmode
  obtain ⟨before, rfl, hnil, hw, hn⟩ := hp.of_signal hmode hbuf
  exact .flushing ⟨hopen.msgChan, hclosed.trans hopen.signalChan⟩ hw hnil rfl hn

variable [DecidableEq δ]

theorem Inv.begin (h : Inv s) {d : δ} {sg : Signal} (hclosed : s.msgChan.closed = false)
    (halone : ∀ d, s.calls d = .idle) : Inv (s.setCall d (.signalling sg s.sent.length)) := by
  refine ⟨h.safe, h.fifo, h.flushed, some d, fun d' hd' => ?_, ?_⟩
  · have hne : d' ≠ d := fun heq => hd' (congrArg some heq)
    exact (Function.update_of_ne hne _ _).trans (halone d')
  · rw [Option.elim_some, show (s.setCall d _).calls d = _ from Function.update_self d _ _]
    obtain ⟨o, -, hp⟩ := h.phase
    have hcall : o.elim .idle s.calls = .idle := by
      cases o with
      | none => rfl
      | some d' => exact halone d'
    rw [hcall] at hp
    cases hp with
    | resting ho hw hb hm => exact .signalling ⟨ho.msgChan, ho.signalChan⟩ hw hb hm le_rfl
    | closed hc hm => cases hc.symm.trans hclosed

/-- The call that takes a step is the one that is running. -/
theorem Inv.phase_of_call (h : Inv s) {d : δ} (hd : s.calls d ≠ .idle) :
    (∀ d' ≠ d, s.calls d' = .idle) ∧ Phase s (s.calls d) := by
  obtain ⟨o, hidle, hp⟩ := h.phase
  obtain rfl : some d = o := by
    by_contra hne
    exact hd (hidle d hne)
  exact ⟨fun d' hd' => hidle d' fun heq => hd' (Option.some.inj heq), hp⟩

/-- The call that is running goes on, or returns. -/
theorem phase_setCall {d : δ} (halone : ∀ d' ≠ d, s.calls d' = .idle) (h : Phase s' pc)
    (hcalls : s'.calls = Function.update s.calls d pc) :
    ∃ o : Option δ, (∀ d, some d ≠ o → s'.calls d = .idle) ∧ Phase s' (o.elim .idle s'.calls) := by
  refine ⟨some d, fun d' hd' => ?_, ?_⟩
  · have hne : d' ≠ d := fun heq => hd' (congrArg some heq)
    rw [hcalls, Function.update_of_ne hne]
    exact halone d' hne
  · rw [Option.elim_some, hcalls, Function.update_self]
    exact h

theorem Inv.callStep (h : Inv s) {d : δ} (hstep : s.callStep d (s.calls d) = some s') : Inv s' := by
  unfold BeeLogger.callStep at hstep
  split at hstep
  · cases hstep
  · next sg before hpc =>
    obtain ⟨halone, hp⟩ := h.phase_of_call (by rw [hpc]; nofun)
    rw [hpc] at hp
    cases hp with
    | signalling ho hw hb hm hn =>
      obtain ⟨c, hsend⟩ := Chan.send_of_nil sg ho.signalChan hb
      obtain ⟨-, hbuf, hclosed⟩ := Chan.send_eq_ok hsend
      rw [hsend] at hstep
      cases hstep
      rw [hb] at hbuf
      exact ⟨h.safe, h.fifo, h.flushed,
        phase_setCall halone (.signalled ⟨ho.msgChan, hclosed⟩ hw hbuf hm hn) rfl⟩
  · next sg before hpc =>
    obtain ⟨halone, hp⟩ := h.phase_of_call (by rw [hpc]; nofun)
    rw [hpc] at hp
    split at hstep <;> cases hstep
    next hzero =>
      cases hp with
      | acked ho hw hb hm hf =>
        exact ⟨h.safe, h.fifo, h.flushed, phase_setCall halone
          (.passed ⟨ho.msgChan, ho.signalChan⟩ hw hb hm ⟨hf.flushed, hf.destroyed⟩) rfl⟩
      | signalled ho hw | flushing ho hw | done ho hw => omega
  · next before hpc =>
    obtain ⟨halone, hp⟩ := h.phase_of_call (by rw [hpc]; nofun)
    rw [hpc] at hp
    cases hstep
    cases hp with
    | passed ho hw hb hm hf =>
      refine ⟨h.safe, h.fifo, h.flushed, phase_setCall halone (.resting ⟨ho.msgChan, ho.signalChan⟩ ?_ hb hm) rfl⟩
      exact congrArg (· + 1) hw
  · next before hpc =>
    obtain ⟨halone, hp⟩ := h.phase_of_call (by rw [hpc]; nofun)
    rw [hpc] at hp
    cases hp with
    | passed ho hw hb hm hf =>
      rw [ho.msgChan, ho.signalChan, Bool.or_self, if_neg Bool.false_ne_true] at hstep
      cases hstep
      exact ⟨h.safe, h.fifo, h.flushed, phase_setCall halone (.closed rfl hm) rfl⟩

theorem Inv.step (h : Inv s) {a : LogAct μ δ} (hproper : s.Proper a) (hstep : s.step a = some s') : Inv s' := by
  unfold BeeLogger.step at hstep
  rw [if_neg (Bool.eq_false_iff.mp h.safe)] at hstep
  cases a with
  | send lm =>
    dsimp only at hstep
    split at hstep
    · next c hsend =>
      cases hstep
      obtain ⟨hopen, hbuf, hclosed⟩ := Chan.send_eq_ok hsend
      refine ⟨h.safe, ?_, h.flushed, h.keep rfl fun pc hp => ?_⟩
      · dsimp only
        rw [h.fifo, hbuf, List.append_assoc]
      · exact hp.mono (hclosed.trans hopen.symm) rfl rfl rfl rfl rfl (by simp)
    · cases hstep
    · next hpanic =>
      have hopen : s.msgChan.closed = false := hproper
      rw [Chan.send_eq_panic.mp hpanic] at hopen
      cases hopen
  | begin d sg =>
    dsimp only at hstep
    split at hstep <;> cases hstep
    exact h.begin hproper.1 hproper.2
  | call d => exact h.callStep hstep
  | recvMsg =>
    dsimp only at hstep
    split at hstep
    · next bm c hpc hrecv =>
      cases hstep
      exact h.recvMsg hpc hrecv
    · next c hpc hrecv =>
      obtain ⟨o, -, hp⟩ := h.phase
      have hopen := (hp.open_of_quiet (by rw [hpc]; rfl)).msgChan
      cases hopen.symm.trans (Chan.recv_eq_closed hrecv).2
    · cases hstep
  | recvSignal =>
    dsimp only at hstep
    split at hstep
    · next sg c hpc hrecv =>
      cases hstep
      exact h.recvSignal hpc hrecv
    · next c hpc hrecv =>
      obtain ⟨o, -, hp⟩ := h.phase
      have hopen := (hp.open_of_quiet (by rw [hpc]; rfl)).signalChan
      cases hopen.symm.trans (Chan.recv_eq_closed hrecv).2
    · cases hstep
  | logger => exact h.loggerStep hstep

theorem inv_of_run {as : List (LogAct μ δ)} (hproper : Along step Proper (start : BeeLogger μ δ msgChanLen) as)
    (hrun : run step (start : BeeLogger μ δ msgChanLen) as = some s) : Inv s :=
  run_invariant (fun _ _ _ h hp hstep => h.step hp hstep) inv_start hproper hrun

/-- Nothing panics, messages come out in the order they went in, and when the wait of a `Flush` or `Close` is
over, all that was sent before the call has been written, and the outputs have been flushed after it. -/
theorem flush_waits {as : List (LogAct μ δ)}
    (hproper : Along step Proper (start : BeeLogger μ δ msgChanLen) as)
    (hrun : run step (start : BeeLogger μ δ msgChanLen) as = some s) :
    s.panicked = false ∧ s.sent = s.written ++ s.logger.inFlight ++ s.msgChan.buf ∧
      ∀ d sg before, s.calls d = .passed sg before →
        s.sent.take before <+: s.written.take s.flushed ∧
          (sg = .close → s.destroyed = true ∧ s.logger.mode = .ended) := by
  have h := inv_of_run hproper hrun
  refine ⟨h.safe, h.fifo, fun d sg before hpc => ?_⟩
  obtain ⟨-, hp⟩ := h.phase_of_call (d := d) (by rw [hpc]; nofun)
  rw [hpc] at hp
  cases hp with
  | passed ho hw hb hm hf =>
    have hlen : before ≤ s.written.length := hf.flushed.trans h.flushed
    constructor
    · rw [h.fifo, List.append_assoc, List.take_append_of_le_length hlen]
      exact List.take_prefix_take_left hf.flushed
    · rintro rfl
      exact ⟨hf.destroyed rfl, hm⟩

/-- A call of `Flush` between two messages. -/
theorem flush_waits_once :
    let as : List (LogAct ℕ Unit) :=
      [.send 1, .begin () .flush, .send 2, .call (), .recvSignal, .logger, .logger, .logger, .logger, .logger,
        .logger, .call ()]
    ∃ s : BeeLogger ℕ Unit 2, run step start as = some s ∧ s.sent.take 1 <+: s.written.take s.flushed := by
  intro as
  have hsome : (run step (start : BeeLogger ℕ Unit 2) as).isSome = true := by decide
  obtain ⟨s, hrun⟩ := Option.isSome_iff_exists.mp hsome
  have hpassed : ((run step (start : BeeLogger ℕ Unit 2) as).map fun s => s.calls ()) =
      some (.passed .flush 1) := by decide
  rw [hrun] at hpassed
  exact ⟨s, hrun, ((flush_waits (by decide) hrun).2.2 () .flush 1 (Option.some.inj hpassed)).1⟩

/-- Two calls of `Flush` at a time: the second is served before the first has put the wait group up again. -/
example :
    let as : List (LogAct ℕ Bool) :=
      [.begin true .flush, .begin false .flush, .call true, .recvSignal, .call false, .logger, .logger,
        .recvSignal, .logger, .logger]
    (run step (start : BeeLogger ℕ Bool 2) as).any BeeLogger.panicked = true := by decide

end BeeLogger

end Vmqant.Logs
