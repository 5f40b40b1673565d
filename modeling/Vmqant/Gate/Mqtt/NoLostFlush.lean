import Vmqant.Gate.Mqtt.WireOrder

/-!
# No lost flush

A call of `WritePack` that has written to the buffer sends a token when it has left the lock, and the
flusher flushes the buffer for each token. So bytes in the buffer come with a call that is on its way to
its send, with a token, or with the flusher on its way to the flush. This holds until the channel is
closed, and only a failed write closes it where `Close` is not called from elsewhere.
-/

namespace Vmqant.Mqtt.PackQueue

open Lts

variable {size : ℕ} {γ κ δ : Type} {c : Conn γ} {s s' : State size γ κ δ} {k : κ}

theorem writer_setWriter [DecidableEq κ] (pc : WritePc) (k' : κ) :
    (s.setWriter k pc).writer k' = if k' = k then pc else s.writer k' :=
  Function.update_apply s.writer k pc k'

/-! ## The invariant -/

/-- The call has begun to write, and its token is not sent yet. -/
def WritePc.Owes : WritePc → Prop
  | .writing _ | .wrote _ | .sending _ => True
  | _ => False

/-- Between the receive and the flush. -/
def FlushPc.Flushing : FlushPc → Prop
  | .received | .locked | .connected => True
  | _ => False

/-- A flush is to come. -/
def State.Pending (s : State size γ κ δ) : Prop :=
  s.fch.buf ≠ [] ∨ (∃ k, (s.writer k).Owes) ∨ s.flusher.Flushing

/-- The invariant of the tokens. -/
structure Tokens (s : State size γ κ δ) : Prop where
  closing : ∀ k, s.writer k = .closing .setStatus → s.fch.closed = true
  closers : ∀ d, s.closer d = .setStatus → s.fch.closed = true
  status : s.status = false → s.fch.closed = true
  stopped : s.flusher = .stopped ∨ s.flusher = .unlocking true →
    s.fch.closed = true ∨ s.w.err = true
  pending : s.fch.closed = false → s.w.err = false → s.w.buf ≠ [] → s.Pending

theorem tokens_init (g : γ) : Tokens (State.init g : State size γ κ δ) where
  closing _ h := by cases h
  closers _ h := by cases h
  status h := by cases h
  stopped h := by rcases h with h | h <;> cases h
  pending _ _ h := absurd rfl h

namespace Tokens

/-- Nothing is claimed of a closed channel. -/
theorem of_closed (h : s.fch.closed = true) : Tokens s where
  closing _ _ := h
  closers _ _ := h
  status _ := h
  stopped _ := .inl h
  pending hopen := by
    rw [h] at hopen
    cases hopen

/-- While the channel is open, the queue is connected. -/
theorem status_of_open (hs : Tokens s) (hopen : s.fch.closed = false) : s.status = true := by
  cases hstatus : s.status with
  | true => rfl
  | false =>
    have hclosed := hs.status hstatus
    rw [hopen] at hclosed
    cases hclosed

/-- The flusher moves on. -/
theorem setFlusher (hs : Tokens s) {pc : FlushPc} (hstopped : pc ≠ .stopped ∧ pc ≠ .unlocking true)
    (hflushing : s.flusher.Flushing → pc.Flushing) : Tokens { s with flusher := pc } :=
  { hs with
    stopped := fun h => absurd h (not_or.mpr hstopped)
    pending := fun hopen herr hbuf => (hs.pending hopen herr hbuf).imp_right fun h =>
      h.imp_right hflushing }

theorem flushStep (hs : Tokens s) (h : FlushStep c s s.flusher s') : Tokens s' := by
  generalize hpc : s.flusher = pc at h
  cases h with
  | disconnected hstatus => exact of_closed (hs.status hstatus)
  | wait hstatus => exact hs.setFlusher (by simp) (by simp [hpc, FlushPc.Flushing])
  | receive hrecv =>
    obtain ⟨-, hclosed⟩ := Chan.recv_eq_value hrecv
    exact
      { closing := fun k hk => hclosed.trans (hs.closing k hk)
        closers := fun d hd => hclosed.trans (hs.closers d hd)
        status := fun h => hclosed.trans (hs.status h)
        stopped := by simp
        pending := fun _ _ _ => .inr (.inr trivial) }
  | closed hclosed => exact of_closed hclosed
  | lock hfree =>
    have hs' : Tokens { s with flusher := .locked } := hs.setFlusher (by simp) fun _ => trivial
    exact { hs' with }
  | leave hstatus => exact of_closed (hs.status hstatus)
  | connected hstatus => exact hs.setFlusher (by simp) fun _ => trivial
  | empty hbuf =>
    exact
      { hs with
        stopped := by simp
        pending := fun _ _ h => absurd hbuf h }
  | @flush w' g' hflush =>
    exact
      { hs with
        stopped := fun h => by
          rcases h with h | h
          · cases h
          · exact .inr (FlushPc.unlocking.inj h)
        pending := fun _ herr hbuf => by
          -- the buffer is empty after the flush
          refine absurd ?_ hbuf
          change w'.buf = []
          rw [show w' = (s.w.flush c s.conn).1 by rw [hflush]]
          exact BufWriter.flush_buf c s.conn (by rw [hflush]; exact herr) }
  | unlock stop =>
    cases stop with
    | true =>
      have hstop := hs.stopped (.inr hpc)
      exact
        { hs with
          stopped := fun _ => hstop
          pending := fun hopen herr => by
            rcases hstop with h | h
            · rw [show s.fch.closed = false from hopen] at h
              cases h
            · rw [show s.w.err = false from herr] at h
              cases h }
    | false =>
      have hs' : Tokens { s with flusher := .head } :=
        hs.setFlusher (by simp) (by simp [hpc, FlushPc.Flushing])
      exact { hs' with }

/-- A step of `Close`, which has closed the channel before it changes the status. -/
theorem closeStep {pc pc' : ClosePc} (hs : Tokens s) (h : CloseStep c s pc pc' s')
    (hclosed : pc = .setStatus → s.fch.closed = true) :
    Tokens s' ∧ (pc' = .setStatus → s'.fch.closed = true) ∧ s'.writer = s.writer ∧
      s'.closer = s.closer := by
  cases h with
  | setError err => exact ⟨{ hs with }, by simp, rfl, rfl⟩
  | closeFch => exact ⟨of_closed rfl, fun _ => rfl, rfl, rfl⟩
  | setStatus => exact ⟨of_closed (hclosed rfl), by simp, rfl, rfl⟩
  | closeConn => exact ⟨{ hs with }, by simp, rfl, rfl⟩

variable [DecidableEq κ]

/-- A call moves on; if it was on its way to its send, it still is. -/
theorem setWriter (hs : Tokens s) {pc pc' : WritePc} (hk : s.writer k = pc)
    (hclosing : pc' ≠ .closing .setStatus)
    (howes : pc.Owes → pc'.Owes) : Tokens (s.setWriter k pc') := by
  subst hk
  refine
    { hs with
      closing := fun k' hk' => ?_
      pending := fun hopen herr hbuf => ?_ }
  · rw [writer_setWriter] at hk'
    split at hk'
    · exact absurd hk' hclosing
    · exact hs.closing k' hk'
  · rcases hs.pending hopen herr hbuf with h | ⟨k', h⟩ | h
    · exact .inl h
    · refine .inr (.inl ⟨k', ?_⟩)
      rw [writer_setWriter]
      split
      · next heq =>
        rw [heq] at h
        exact howes h
      · exact h
    · exact .inr (.inr h)

/-- A call writes to the buffer. -/
theorem encode (hs : Tokens s) {pc' : WritePc} (hpc : pc'.Owes) {w' : BufWriter size} {g' : γ}
    (herr : s.w.err = true → w'.err = true) :
    Tokens { s.setWriter k pc' with w := w', conn := g' } := by
  refine
    { hs with
      closing := fun k' hk' => ?_
      stopped := fun h => (hs.stopped h).imp_right herr
      pending := fun _ _ _ => .inr (.inl ⟨k, ?_⟩) }
  · change (s.setWriter k pc').writer k' = _ at hk'
    rw [writer_setWriter] at hk'
    split at hk'
    · rw [hk'] at hpc
      exact hpc.elim
    · exact hs.closing k' hk'
  · change ((s.setWriter k pc').writer k).Owes
    rw [writer_setWriter, if_pos rfl]
    exact hpc

theorem writeStep (hs : Tokens s) (h : WriteStep c s k (s.writer k) s') : Tokens s' := by
  generalize hpc : s.writer k = pc at h
  cases h with
  | call p => exact hs.setWriter hpc (by simp) False.elim
  | lock p hfree =>
    have hs' : Tokens (s.setWriter k (.locked p)) :=
      hs.setWriter hpc (by simp) False.elim
    exact { hs' with }
  | disconnected p hstatus => exact of_closed (hs.status hstatus)
  | connected p hstatus => exact hs.setWriter hpc (by simp) False.elim
  | error p herr => exact hs.setWriter hpc (by simp) False.elim
  | noError p herr => exact hs.setWriter hpc (by simp) False.elim
  | full p hfull => exact hs.setWriter hpc (by simp) False.elim
  | begin p hroom =>
    have hs' : Tokens (s.setWriter k (.writing p.pack.pieces)) :=
      hs.setWriter hpc (by simp) fun _ => trivial
    exact { hs' with }
  | finish => exact hs.setWriter hpc (by simp) fun _ => trivial
  | skip rest => exact hs.setWriter hpc (by simp) fun _ => trivial
  | write b rest hwrite herr =>
    refine hs.encode ?_ (BufWriter.err_of_write hwrite)
    exact trivial
  | fail b rest hwrite herr =>
    refine hs.encode ?_ (BufWriter.err_of_write hwrite)
    exact trivial
  | unlock failed =>
    have hs' : Tokens (s.setWriter k (.sending failed)) :=
      hs.setWriter hpc (by simp) fun _ => trivial
    exact { hs' with }
  | leave =>
    have hs' : Tokens (s.setWriter k .returned) :=
      hs.setWriter hpc (by simp) False.elim
    exact { hs' with }
  | panic failed hclosed => exact of_closed hclosed
  | send failed hsend =>
    -- the token is in the channel
    obtain ⟨hopen, hbuf, hopen'⟩ := Chan.send_eq_ok hsend
    have hno : s.fch.closed ≠ true := by simp [hopen]
    refine
      { closing := fun k' hk' => ?_
        closers := fun d hd => absurd (hs.closers d hd) hno
        status := fun h => absurd (hs.status h) hno
        stopped := fun h => (hs.stopped h).imp_left fun hclosed => absurd hclosed hno
        pending := fun _ _ _ => .inl ?_ }
    · change (s.setWriter k _).writer k' = _ at hk'
      rw [writer_setWriter] at hk'
      split at hk'
      · cases failed <;> cases hk'
      · exact absurd (hs.closing k' hk') hno
    · dsimp only
      rw [hbuf]
      simp
  | @close pc₀ pc' s₁ hclose wpc hwpc =>
    obtain ⟨hs', hclosed, hwriter, -⟩ := hs.closeStep hclose fun h => hs.closing k (h ▸ hpc)
    rw [← hwriter] at hpc
    rcases hwpc with rfl | rfl
    · by_cases hstatus : pc' = .setStatus
      · exact of_closed (hclosed hstatus)
      · exact hs'.setWriter hpc (by simpa using hstatus) False.elim
    · exact hs'.setWriter hpc (by simp) False.elim

variable [DecidableEq δ]

theorem step {a : Act κ δ} (hs : Tokens s) (h : step c s a = some s') : Tokens s' := by
  cases a with
  | writer k a => exact hs.writeStep (writeStep_eq_some h)
  | flusher a => exact hs.flushStep (flushStep_eq_some h)
  | closer d a =>
    have hmove : ∀ {s₁ : State size γ κ δ} {pc : ClosePc}, Tokens s₁ →
        (pc = .setStatus → s₁.fch.closed = true) → Tokens (s₁.setCloser d pc) := by
      intro s₁ pc hs₁ hpc
      refine { hs₁ with closers := fun d' hd' => ?_ }
      change Function.update s₁.closer d pc d' = .setStatus at hd'
      rw [Function.update_apply] at hd'
      split at hd'
      · exact hpc hd'
      · exact hs₁.closers d' hd'
    cases a with
    | call err =>
      unfold PackQueue.step at h
      dsimp only at h
      split at h
      · obtain rfl := Option.some.inj h
        exact hmove hs (by simp)
      · cases h
    | next =>
      obtain ⟨⟨pc', s₁⟩, hclose, rfl⟩ := Option.map_eq_some_iff.mp h
      obtain ⟨hs', hclosed, -, -⟩ := hs.closeStep (closeStep_eq_some hclose) (hs.closers d)
      exact hmove hs' hclosed

end Tokens

/-! ## Without other calls of `Close` -/

/-- The channel is closed after a failed write only. -/
structure Unclosed (s : State size γ κ Empty) : Prop where
  closed : s.fch.closed = true → s.w.err = true
  closing : ∀ k pc, s.writer k = .closing pc → s.w.err = true
  failed : ∀ k, s.writer k = .wrote true ∨ s.writer k = .sending true → s.w.err = true

theorem unclosed_init (g : γ) : Unclosed (State.init g : State size γ κ Empty) where
  closed h := by cases h
  closing _ _ h := by cases h
  failed _ h := by rcases h with h | h <;> cases h

namespace Unclosed

variable {s s' : State size γ κ Empty}

/-- Nothing is claimed after a failed write. -/
theorem of_err (h : s.w.err = true) : Unclosed s := ⟨fun _ => h, fun _ _ _ => h, fun _ _ => h⟩

/-- The writer is used. -/
theorem setW (hs : Unclosed s) {w' : BufWriter size} {g' : γ}
    (herr : s.w.err = true → w'.err = true) : Unclosed { s with w := w', conn := g' } where
  closed h := herr (hs.closed h)
  closing k pc h := herr (hs.closing k pc h)
  failed k h := herr (hs.failed k h)

theorem flushStep (hs : Unclosed s) (h : FlushStep c s s.flusher s') : Unclosed s' := by
  generalize s.flusher = pc at h
  cases h with
  | receive hrecv =>
    obtain ⟨-, hclosed⟩ := Chan.recv_eq_value hrecv
    exact { hs with closed := fun h => hs.closed (hclosed.symm.trans h) }
  | @flush w' g' hflush =>
    have hs' : Unclosed { s with w := w', conn := g' } := hs.setW (BufWriter.err_of_flush hflush)
    exact { hs' with }
  | _ => exact { hs with }

variable [DecidableEq κ]

/-- A call moves on, and is not about to close the queue unless a write has failed. -/
theorem setWriter (hs : Unclosed s) {pc : WritePc}
    (hpc : (∃ pc', pc = .closing pc') ∨ pc = .wrote true ∨ pc = .sending true → s.w.err = true) :
    Unclosed (s.setWriter k pc) := by
  refine { hs with closing := fun k' pc' hk' => ?_, failed := fun k' hk' => ?_ }
  · rw [writer_setWriter] at hk'
    split at hk'
    · exact hpc (.inl ⟨pc', hk'⟩)
    · exact hs.closing k' pc' hk'
  · rw [writer_setWriter] at hk'
    split at hk'
    · exact hpc (.inr hk')
    · exact hs.failed k' hk'

theorem writeStep (hs : Unclosed s) (h : WriteStep c s k (s.writer k) s') : Unclosed s' := by
  generalize hpc : s.writer k = pc at h
  cases h with
  | call p => exact hs.setWriter (by simp)
  | lock p hfree =>
    have hs' : Unclosed (s.setWriter k (.locked p)) := hs.setWriter (by simp)
    exact { hs' with }
  | disconnected p hstatus => exact hs.setWriter (by simp)
  | connected p hstatus => exact hs.setWriter (by simp)
  | error p herr => exact hs.setWriter (by simp)
  | noError p herr => exact hs.setWriter (by simp)
  | full p hfull => exact hs.setWriter (by simp)
  | begin p hroom =>
    have hs' : Unclosed (s.setWriter k (.writing p.pack.pieces)) := hs.setWriter (by simp)
    exact { hs' with }
  | finish => exact hs.setWriter (by simp)
  | skip rest => exact hs.setWriter (by simp)
  | write b rest hwrite herr =>
    have hs' : Unclosed (s.setWriter k (.writing rest)) := hs.setWriter (by simp)
    exact hs'.setW (BufWriter.err_of_write hwrite)
  | fail b rest hwrite herr => exact of_err herr
  | unlock failed =>
    have hs' : Unclosed (s.setWriter k (.sending failed)) :=
      hs.setWriter fun h => hs.failed k (.inl (by simpa [hpc] using h))
    exact { hs' with }
  | leave =>
    have hs' : Unclosed (s.setWriter k .returned) := hs.setWriter (by simp)
    exact { hs' with }
  | panic failed hclosed => exact hs.setWriter fun _ => hs.closed hclosed
  | send failed hsend =>
    obtain ⟨-, -, hopen⟩ := Chan.send_eq_ok hsend
    cases failed with
    | true => exact of_err (hs.failed k (.inr hpc))
    | false =>
      have hs' : Unclosed (s.setWriter k .returned) := hs.setWriter (by simp)
      refine { hs' with closed := fun h => ?_ }
      rw [hopen] at h
      cases h
  | @close pc₀ pc' s₁ hclose wpc hwpc =>
    have herr := hs.closing k pc₀ hpc
    cases hclose <;> exact of_err herr

theorem step {a : Act κ Empty} (hs : Unclosed s) (h : step c s a = some s') : Unclosed s' := by
  cases a with
  | writer k a => exact hs.writeStep (writeStep_eq_some h)
  | flusher a => exact hs.flushStep (flushStep_eq_some h)
  | closer d a => exact d.elim

end Unclosed

/-! ## Every run -/

/-- **No flush is lost**: in every state of a run of calls of `WritePack` and the flusher in which no write
has failed, the queue is connected and the flusher has not stopped; and if there are bytes in the buffer,
then a token is in the channel, or a call is between its unlock and its send, or the flusher is between its
receive and its flush, or a call is still inside the lock, past its checks. -/
theorem no_lost_flush [DecidableEq κ] (c : Conn γ) (g : γ) (as : List (Act κ Empty))
    (s : State size γ κ Empty) (hrun : run (step c) (.init g) as = some s)
    (herr : s.w.err = false) :
    s.status = true ∧ s.flusher ≠ .stopped ∧
    (s.w.buf ≠ [] → s.fch.buf ≠ [] ∨ (∃ k failed, s.writer k = .sending failed) ∨
      (s.flusher = .received ∨ s.flusher = .locked ∨ s.flusher = .connected) ∨
      (s.writelock = true ∧
        ∃ k, (∃ rest, s.writer k = .writing rest) ∨ ∃ failed, s.writer k = .wrote failed)) := by
  have hinv : Inv s := reachable_invariant (inv_init g) (fun _ _ _ hs h => hs.step h) ⟨as, hrun⟩
  have htokens : Tokens s :=
    reachable_invariant (tokens_init g) (fun _ _ _ hs h => hs.step h) ⟨as, hrun⟩
  have hunclosed : Unclosed s :=
    reachable_invariant (unclosed_init g) (fun _ _ _ hs h => hs.step h) ⟨as, hrun⟩
  have hopen : s.fch.closed = false := by
    rw [← Bool.not_eq_true]
    intro hclosed
    rw [hunclosed.closed hclosed] at herr
    cases herr
  refine ⟨htokens.status_of_open hopen, fun hstopped => ?_, fun hbuf => ?_⟩
  · rcases htokens.stopped (.inl hstopped) with h | h
    · rw [hopen] at h
      cases h
    · rw [herr] at h
      cases h
  · rcases htokens.pending hopen herr hbuf with h | ⟨k, h⟩ | h
    · exact .inl h
    · -- where the call is
      cases hk : s.writer k with
      | sending failed => exact .inr (.inl ⟨k, failed, hk⟩)
      | writing rest =>
        exact .inr (.inr (.inr ⟨hinv.mutex.held k (hk ▸ trivial), k, .inl ⟨rest, hk⟩⟩))
      | wrote failed =>
        exact .inr (.inr (.inr ⟨hinv.mutex.held k (hk ▸ trivial), k, .inr ⟨failed, hk⟩⟩))
      | _ =>
        rw [hk] at h
        exact h.elim
    · refine .inr (.inr (.inl ?_))
      cases hf : s.flusher with
      | received => exact .inl rfl
      | locked => exact .inr (.inl rfl)
      | connected => exact .inr (.inr rfl)
      | _ =>
        rw [hf] at h
        exact h.elim

/-- A call has sent its token, and the flusher has not received it. -/
def tokenRun : List (Act Unit Empty) :=
  [.writer () (.call (samplePack 1)), .writer () .lock, .writer () .check, .writer () .check,
    .writer () .check, .writer () .write, .writer () .write, .writer () .write, .writer () .write,
    .writer () .unlock, .writer () .send, .flusher .check]

theorem no_lost_flush_tokenRun :
    ∃ s : State 4096 Unit Unit Empty, run (step sampleConn) (.init ()) tokenRun = some s ∧
      s.w.buf = [64, 2, 0, 1] ∧ s.fch.buf = [()] ∧ s.status = true ∧ s.flusher ≠ .stopped := by
  have hsome : ∃ s : State 4096 Unit Unit Empty,
      run (step sampleConn) (.init ()) tokenRun = some s ∧ s.w.err = false ∧
        s.w.buf = [64, 2, 0, 1] ∧ s.fch.buf = [()] := ⟨_, rfl, rfl, rfl, rfl⟩
  obtain ⟨s, hrun, herr, hbuf, hfch⟩ := hsome
  obtain ⟨hstatus, hstopped, -⟩ := no_lost_flush sampleConn () tokenRun s hrun herr
  exact ⟨s, hrun, hbuf, hfch, hstatus, hstopped⟩

/-- A call is in the encoder. -/
def encodingRun : List (Act Unit Empty) := tokenRun.take 6

/-- There is a byte in the buffer, no token, no call between its unlock and its send, and the flusher has
not received anything. -/
theorem unflushed_encodingRun :
    ∃ s : State 4096 Unit Unit Empty, run (step sampleConn) (.init ()) encodingRun = some s ∧
      s.status = true ∧ s.w.err = false ∧ s.w.buf ≠ [] ∧
      ¬ (s.fch.buf ≠ [] ∨ (∃ k failed, s.writer k = .sending failed) ∨
        (s.flusher = .received ∨ s.flusher = .locked ∨ s.flusher = .connected)) := by
  refine ⟨_, rfl, rfl, rfl, List.cons_ne_nil _ _, ?_⟩
  rintro (h | ⟨k, failed, h⟩ | h | h | h)
  · exact h rfl
  all_goals cases h

end Vmqant.Mqtt.PackQueue
