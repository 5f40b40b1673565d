import Vmqant.Rpc.Correlation

/-!
# The reply loop and timeouts

The loop looks an entry up and sends on its channel two steps later. A call that times out closes
the channel first and deletes the entry second. When the close falls between the look-up and the
send, or the look-up between the close and the delete, the send panics and the loop is gone; when the
call registers between a look-up that found nothing and its delete, the delete takes the fresh entry.
`Calm` rules out exactly these orders, and then the loop survives and delivers.
-/

namespace Vmqant.Rpc

open Lts

variable {κ δ : Type} {cid : κ → String} {s s' : State κ δ}

/-! ## The condition on the steps -/

/-- `Done` is not called. -/
def Act.NotDone : Act κ δ → Prop
  | .done _ _ => False
  | _ => True

/-- The race is not run: a call does not close its channel while the loop holds its entry, the loop
does not look up the entry of a call that has closed its channel, and its delete removes no entry
that its look-up did not find. -/
def Calm (s : State κ δ) : Act κ δ → Prop
  | .call k .close => ∀ a info, s.loop.Holds a info → info.call ≠ k
  | .loop .get => ∀ a info, s.loop = .got a → s.callinfos.get a.info.cid = some info →
    s.caller info.call ≠ .closing
  | .loop .delete => ∀ a, s.loop = .found a none → s.callinfos.get a.info.cid = none
  | _ => True

/-- The entry is in the table and its call has not given up. -/
def CallPc.Pending (pc : CallPc) : Prop := pc = .registered ∨ pc = .waiting

/-- The context of the call is done. -/
def CallPc.TimedOut (pc : CallPc) : Prop :=
  pc = .timedOut ∨ pc = .closing ∨ pc = .returned .deadline

def Act.isLoop : Act κ δ → Bool
  | .loop _ => true
  | _ => false

/-- The entry of the call `k` is in the table. -/
def State.HasEntry (s : State κ δ) (cid : κ → String) (k : κ) : Prop :=
  ∃ info, s.callinfos.get (cid k) = some info ∧ info.call = k

/-! ## The invariant -/

/-- The invariant of a run without `Done` and without the race. -/
structure Alive (cid : κ → String) (s : State κ δ) : Prop where
  correlated : Correlated cid s
  kept : s.dropped = false
  running : s.isClose = false
  not_dead : s.loop ≠ .dead
  not_exited : s.loop ≠ .exited
  /-- A channel is closed after its reply was sent, or by its own call. -/
  closed : ∀ k, (s.chan k).closed = true →
    ¬ s.Unsent k ∨ s.caller k = .closing ∨ s.caller k = .returned .deadline
  entry_live : ∀ c info, s.callinfos.get c = some info → s.caller info.call ≠ .returned .deadline
  held_open : ∀ a info, s.loop.Holds a info → (s.chan info.call).closed = false
  sent_loop : ∀ k, s.loop = .sent k → ¬ s.Unsent k
  /-- A call that waits for its reply is in the table or in the hands of the loop. -/
  has_entry : ∀ k, (s.caller k).Pending ∨ s.caller k = .timedOut → s.Unsent k →
    (∀ a info, s.loop.Holds a info → info.call ≠ k) → s.HasEntry cid k

theorem alive_init : Alive cid (State.init : State κ δ) where
  correlated := correlated_init
  kept := rfl
  running := rfl
  not_dead := by simp [State.init]
  not_exited := by simp [State.init]
  closed k h := by simp [State.init, Chan.make] at h
  entry_live c info h := by simp [State.init] at h
  held_open a info h := by simp [State.init, LoopPc.Holds] at h
  sent_loop k h := by simp [State.init] at h
  has_entry k h := by simp [State.init, CallPc.Pending] at h

namespace Alive

variable (hs : Alive cid s)
include hs

/-- An entry the loop may look up belongs to an open channel, its call not being between its close
and its delete. -/
theorem open_of_entry {c : String} {info : ClinetCallInfo κ}
    (hinfo : s.callinfos.get c = some info) (hcalm : s.caller info.call ≠ .closing) :
    (s.chan info.call).closed = false := by
  by_contra hclosed
  rcases hs.closed info.call (by simpa using hclosed) with hsent | hclosing | hdeadline
  · exact hsent (hs.correlated.entry_unsent c info hinfo)
  · exact hcalm hclosing
  · exact hs.entry_live c info hinfo hdeadline

/-- At its send the loop finds an open channel with nothing in it. -/
theorem send_ok {a : Arrival} {info : ClinetCallInfo κ} (ha : s.loop = .deleted a (some info)) :
    ∃ c, (s.chan info.call).send a = .ok c := by
  have hopen := hs.held_open a info (.inr ha)
  cases hsend : (s.chan info.call).send a with
  | ok c => exact ⟨c, rfl⟩
  | blocked => exact absurd ⟨a, info, ha, hsend⟩ hs.correlated.not_sendBlocks
  | panic =>
    rw [Chan.send_eq_panic, hopen] at hsend
    cases hsend

/-! ## The steps of the loop on the table -/

/-- The loop moves on with empty hands. -/
theorem setLoop {l : LoopPc κ} {n : ℕ} (hcorr : Correlated cid { s with loop := l, arrivals := n })
    (hold : ∀ a info, ¬ s.loop.Holds a info)
    (hl : l = .head ∨ l = .reading ∨ ∃ a, l = .got a) :
    Alive cid { s with loop := l, arrivals := n } := by
  have hempty : ∀ a info, ¬ l.Holds a info := by
    rcases hl with rfl | rfl | ⟨b, rfl⟩ <;> simp [LoopPc.Holds]
  exact
    { hs with
      correlated := hcorr
      not_dead := by rcases hl with rfl | rfl | ⟨b, rfl⟩ <;> simp
      not_exited := by rcases hl with rfl | rfl | ⟨b, rfl⟩ <;> simp
      held_open := fun a info h => absurd h (hempty a info)
      sent_loop := by rcases hl with rfl | rfl | ⟨b, rfl⟩ <;> simp
      has_entry := fun k h hunsent _ =>
        hs.has_entry k h hunsent fun a info ha => absurd ha (hold a info) }

theorem get {a : Arrival} (ha : s.loop = .got a)
    (hcalm : ∀ b info, s.loop = .got b → s.callinfos.get b.info.cid = some info →
      s.caller info.call ≠ .closing)
    (hcorr : Correlated cid { s with loop := .found a (s.callinfos.get a.info.cid) }) :
    Alive cid { s with loop := .found a (s.callinfos.get a.info.cid) } :=
  { hs with
    correlated := hcorr
    not_dead := by simp
    not_exited := by simp
    held_open := fun b info h => by
      obtain ⟨rfl, hinfo⟩ : a = b ∧ s.callinfos.get a.info.cid = some info := by
        simpa [LoopPc.Holds] using h
      exact hs.open_of_entry hinfo (hcalm a info ha hinfo)
    sent_loop := by simp
    has_entry := fun k h hunsent _ => hs.has_entry k h hunsent (by simp [ha, LoopPc.Holds]) }

theorem loopDelete (hcid : Function.Injective cid) {a : Arrival} {e : Option (ClinetCallInfo κ)}
    (ha : s.loop = .found a e)
    (hcalm : ∀ b, s.loop = .found b none → s.callinfos.get b.info.cid = none)
    (hcorr : Correlated cid { s.delete a.info.cid with loop := .deleted a e }) :
    Alive cid { s.delete a.info.cid with loop := .deleted a e } := by
  have hheld : ∀ b info, (LoopPc.deleted a e).Holds b info ↔ s.loop.Holds b info := by
    intro b info
    simp [LoopPc.Holds, ha]
  exact
    { hs with
      correlated := hcorr
      not_dead := by simp
      not_exited := by simp
      entry_live := fun c info h => hs.entry_live c info (BeeMap.get_delete_eq_some.mp h).2
      held_open := fun b info h => hs.held_open b info ((hheld b info).mp h)
      sent_loop := by simp
      has_entry := fun k h hunsent hother => by
        obtain ⟨info, hget, hcall⟩ :=
          hs.has_entry k h hunsent fun b info hb => hother b info ((hheld b info).mpr hb)
        refine ⟨info, BeeMap.get_delete_eq_some.mpr ⟨fun heq => ?_, hget⟩, hcall⟩
        -- the key is that of `k`: then the look-up found the entry of `k`, which the loop holds
        cases e with
        | none =>
          rw [heq, hcalm a ha] at hget
          cases hget
        | some info' =>
          have hcid' := hs.correlated.held_cid a info' (.inl ha)
          exact hother a info' (.inr rfl) (hcid (hcid'.trans heq.symm)) }

end Alive

/-! ## The steps of a call -/

variable [DecidableEq κ]

namespace Alive

variable (hs : Alive cid s)
include hs

/-- A call that is neither at its close nor past its deadline has not closed its channel: it may move on. -/
theorem closed_setCaller {k : κ} {pc : CallPc} (hclosing : s.caller k ≠ .closing)
    (hdeadline : s.caller k ≠ .returned .deadline) (k' : κ) (h : (s.chan k').closed = true) :
    ¬ s.Unsent k' ∨ (s.setCaller k pc).caller k' = .closing ∨
      (s.setCaller k pc).caller k' = .returned .deadline := by
  rw [State.caller_setCaller]
  split
  · next hk =>
    subst hk
    rcases hs.closed k' h with hsent | h | h
    · exact .inl hsent
    · exact absurd h hclosing
    · exact absurd h hdeadline
  · exact hs.closed k' h

/-- A call that moves on without touching the table, away from no close and into no deadline. -/
theorem setCaller {k : κ} {pc : CallPc} (hcorr : Correlated cid (s.setCaller k pc))
    (hclosing : s.caller k ≠ .closing) (hdeadline : s.caller k ≠ .returned .deadline)
    (hpc : pc ≠ .returned .deadline)
    (hwait : pc.Pending ∨ pc = .timedOut → (s.caller k).Pending ∨ s.caller k = .timedOut) :
    Alive cid (s.setCaller k pc) :=
  { hs with
    correlated := hcorr
    closed := hs.closed_setCaller hclosing hdeadline
    entry_live := fun c info h => by
      rw [State.caller_setCaller]
      split
      · exact hpc
      · exact hs.entry_live c info h
    has_entry := fun k' h => by
      rw [State.caller_setCaller] at h
      split at h
      · next hk =>
        subst hk
        exact hs.has_entry k' (hwait h)
      · exact hs.has_entry k' h }

/-- A receive leaves the channel as open or closed as it was. -/
theorem setChan {k : κ} {c : Chan Arrival 1} (hcorr : Correlated cid (s.setChan k c))
    (hc : c.closed = (s.chan k).closed) : Alive cid (s.setChan k c) := by
  have hclosed : ∀ k', ((s.setChan k c).chan k').closed = (s.chan k').closed := by
    intro k'
    rw [State.chan_setChan]
    split
    · next hk => rw [hc, hk]
    · rfl
  exact
    { hs with
      correlated := hcorr
      closed := fun k' h => hs.closed k' (by rwa [hclosed] at h)
      held_open := fun a info h => by
        rw [hclosed]
        exact hs.held_open a info h }

theorem set (hcid : Function.Injective cid) {k : κ} (hk : s.caller k = .checked)
    (hcorr : Correlated cid ({ s with callinfos := (s.callinfos.set (cid k) ⟨cid k, k⟩).1 }.setCaller
      k .registered)) :
    Alive cid ({ s with callinfos := (s.callinfos.set (cid k) ⟨cid k, k⟩).1 }.setCaller k
      .registered) :=
  { hs with
    correlated := hcorr
    closed := hs.closed_setCaller (by simp [hk]) (by simp [hk])
    entry_live := fun c info h => by
      rw [State.caller_setCaller]
      split
      · simp
      · next hne =>
        have hget : (s.callinfos.set (cid k) ⟨cid k, k⟩).1.get c = some info := h
        rw [BeeMap.get_set] at hget
        split at hget
        · obtain rfl := Option.some.inj hget
          exact absurd rfl hne
        · exact hs.entry_live c info hget
    has_entry := fun k' h hunsent hheld => by
      show ∃ info, (s.callinfos.set (cid k) ⟨cid k, k⟩).1.get (cid k') = some info ∧ info.call = k'
      rw [BeeMap.get_set]
      split
      · next hcid' =>
        -- with distinct ids the new entry hides no other call's
        obtain rfl := hcid hcid'
        exact ⟨_, rfl, rfl⟩
      · next hne =>
        rw [State.caller_setCaller, if_neg (fun hk' => hne (congrArg cid hk'))] at h
        exact hs.has_entry k' h hunsent hheld }

theorem close {k : κ} (hcalm : ∀ a info, s.loop.Holds a info → info.call ≠ k)
    (hcorr : Correlated cid ((s.closeFch k).setCaller k .closing)) :
    Alive cid ((s.closeFch k).setCaller k .closing) := by
  have hchan : ∀ k', k' ≠ k → (s.closeFch k).chan k' = s.chan k' := by
    intro k' hne
    rw [State.closeFch, State.chan_setChan, if_neg hne]
  exact
    { hs with
      correlated := hcorr
      closed := fun k' h => by
        rw [State.caller_setCaller]
        split
        · exact .inr (.inl rfl)
        · next hne =>
          have h' : ((s.closeFch k).chan k').closed = true := h
          rw [hchan k' hne] at h'
          exact hs.closed k' h'
      entry_live := fun c info h => by
        rw [State.caller_setCaller]
        split
        · simp
        · exact hs.entry_live c info h
      held_open := fun a info h => by
        show ((s.closeFch k).chan info.call).closed = false
        rw [hchan _ (hcalm a info h)]
        exact hs.held_open a info h
      has_entry := fun k' h => by
        rw [State.caller_setCaller] at h
        split at h
        · simp [CallPc.Pending] at h
        · exact hs.has_entry k' h }

theorem delete (hcid : Function.Injective cid) {k : κ}
    (hcorr : Correlated cid ((s.delete (cid k)).setCaller k (.returned .deadline))) :
    Alive cid ((s.delete (cid k)).setCaller k (.returned .deadline)) :=
  { hs with
    correlated := hcorr
    closed := fun k' h => by
      rw [State.caller_setCaller]
      split
      · exact .inr (.inr rfl)
      · exact hs.closed k' h
    entry_live := fun c info h => by
      obtain ⟨hne, hget⟩ := BeeMap.get_delete_eq_some.mp h
      have hcall : info.call ≠ k := by
        rintro rfl
        exact hne (hs.correlated.entry_cid c info hget).symm
      rw [State.caller_setCaller, if_neg hcall]
      exact hs.entry_live c info hget
    has_entry := fun k' h hunsent hheld => by
      rw [State.caller_setCaller] at h
      split at h
      · simp [CallPc.Pending] at h
      · next hne =>
        obtain ⟨info, hget, hcall⟩ := hs.has_entry k' h hunsent hheld
        exact ⟨info, BeeMap.get_delete_eq_some.mpr ⟨fun heq => hne (hcid heq), hget⟩, hcall⟩ }

theorem callStep (hcid : Function.Injective cid) {k : κ} {a : CallAct}
    (hcalm : Calm s (.call k a)) (h : Rpc.callStep cid s k (s.caller k) a = some s')
    (hcorr : Correlated cid s') : Alive cid s' := by
  generalize hpc : s.caller k = pc at h
  -- the table is not dropped
  have hkept : s.dropped ≠ true := by simp [hs.kept]
  cases callStep_eq_some h with
  | clientClosed hdropped => exact absurd hdropped hkept
  | check _ =>
    exact hs.setCaller hcorr (by simp [hpc]) (by simp [hpc]) (by simp) (by simp [CallPc.Pending])
  | set => exact hs.set hcid hpc hcorr
  | publish =>
    exact hs.setCaller hcorr (by simp [hpc]) (by simp [hpc]) (by simp) (by simp [CallPc.Pending, hpc])
  | publishError err =>
    exact hs.setCaller hcorr (by simp [hpc]) (by simp [hpc]) (by simp) (by simp [CallPc.Pending])
  | @recv b c hrecv =>
    -- the receive takes the reply out of the channel first
    obtain ⟨hbuf, hclosed⟩ := Chan.recv_eq_value hrecv
    have hchan : Shrinks s (s.setChan k c) := .setChan fun b hb => by simp [hbuf, hb]
    have hs' := hs.setChan (hchan.correlated hs.correlated) hclosed
    exact hs'.setCaller hcorr (by simp [State.setChan, hpc]) (by simp [State.setChan, hpc])
      (by simp) (by simp [CallPc.Pending])
  | recvClosed hrecv =>
    exact hs.setCaller hcorr (by simp [hpc]) (by simp [hpc]) (by simp) (by simp [CallPc.Pending])
  | timeout =>
    exact hs.setCaller hcorr (by simp [hpc]) (by simp [hpc]) (by simp) (by simp [CallPc.Pending, hpc])
  | close => exact hs.close hcalm hcorr
  | delete => exact hs.delete hcid hcorr
  | setPanic hdropped => exact absurd hdropped hkept
  | deletePanic hdropped => exact absurd hdropped hkept

/-! ## The steps of the loop on a channel -/

theorem send {a : Arrival} {info : ClinetCallInfo κ} {c : Chan Arrival 1}
    (ha : s.loop = .deleted a (some info)) (hsend : (s.chan info.call).send a = .ok c)
    (hcorr : Correlated cid { s.setChan info.call c with
      loop := .sent info.call, sent := ⟨info.call, a⟩ :: s.sent }) :
    Alive cid { s.setChan info.call c with
      loop := .sent info.call, sent := ⟨info.call, a⟩ :: s.sent } := by
  have hunsent : ∀ k, (∀ d ∈ (⟨info.call, a⟩ : Delivery κ) :: s.sent, d.call ≠ k) →
      info.call ≠ k ∧ s.Unsent k := by
    intro k h
    exact ⟨h _ List.mem_cons_self, fun d hd => h d (List.mem_cons_of_mem _ hd)⟩
  exact
    { hs with
      correlated := hcorr
      not_dead := by simp
      not_exited := by simp
      closed := fun k h => by
        have h' : ((s.setChan info.call c).chan k).closed = true := h
        rw [State.chan_setChan] at h'
        split at h'
        · -- the channel that was sent on is open
          rw [(Chan.send_eq_ok hsend).2.2] at h'
          cases h'
        · rcases hs.closed k h' with hsent | hcaller
          · exact .inl fun hk => hsent (hunsent k hk).2
          · exact .inr hcaller
      held_open := by simp [LoopPc.Holds]
      sent_loop := fun k hk hunsent' => by
        obtain rfl : info.call = k := by simpa using hk
        exact (hunsent _ hunsent').1 rfl
      has_entry := fun k h hk _ => by
        obtain ⟨hne, hk⟩ := hunsent k hk
        apply hs.has_entry k h hk
        intro b info' hb
        obtain ⟨-, rfl⟩ : a = b ∧ info = info' := by simpa [LoopPc.Holds, ha] using hb
        exact hne }

theorem loopClose {k : κ} (hk : s.loop = .sent k)
    (hcorr : Correlated cid { s.closeFch k with loop := .head }) :
    Alive cid { s.closeFch k with loop := .head } :=
  { hs with
    correlated := hcorr
    not_dead := by simp
    not_exited := by simp
    closed := fun k' h => by
      have h' : ((s.closeFch k).chan k').closed = true := h
      rw [State.closeFch, State.chan_setChan] at h'
      split at h'
      · next hk' => exact .inl (hk' ▸ hs.sent_loop k hk)
      · exact hs.closed k' h'
    held_open := by simp [LoopPc.Holds]
    sent_loop := by simp
    has_entry := fun k' h hunsent _ => hs.has_entry k' h hunsent (by simp [hk, LoopPc.Holds]) }

theorem loopStep (hcid : Function.Injective cid) {a : LoopAct} (hcalm : Calm s (.loop a))
    (h : Rpc.loopStep s s.loop a = some s') (hcorr : Correlated cid s') : Alive cid s' := by
  generalize hpc : s.loop = pc at h
  have hkept : s.dropped ≠ true := by simp [hs.kept]
  cases loopStep_eq_some h with
  | exit hclose => exact absurd hclose (by simp [hs.running])
  | read _ => exact hs.setLoop hcorr (by simp [hpc, LoopPc.Holds]) (by simp)
  | noMsg => exact hs.setLoop hcorr (by simp [hpc, LoopPc.Holds]) (by simp)
  | arrive r => exact hs.setLoop hcorr (by simp [hpc, LoopPc.Holds]) (by simp)
  | get a => exact hs.get hpc hcalm hcorr
  | delete a e => exact hs.loopDelete hcid hpc hcalm hcorr
  | noEntry a => exact hs.setLoop hcorr (by simp [hpc, LoopPc.Holds]) (by simp)
  | send hsend => exact hs.send hpc hsend hcorr
  | sendPanic hsend =>
    -- the send finds the channel open and empty
    obtain ⟨c, hc⟩ := hs.send_ok hpc
    rw [hc] at hsend
    cases hsend
  | close k => exact hs.loopClose hpc hcorr
  | getPanic a hdropped => exact absurd hdropped hkept
  | deletePanic a e hdropped => exact absurd hdropped hkept

variable [DecidableEq δ]

theorem step (hcid : Function.Injective cid) {a : Act κ δ} (hdone : a.NotDone) (hcalm : Calm s a)
    (h : Rpc.step cid s a = some s') : Alive cid s' := by
  have hcorr := hs.correlated.step h
  cases a with
  | call k a => exact hs.callStep hcid hcalm h hcorr
  | loop a => exact hs.loopStep hcid hcalm h hcorr
  | done d a => exact absurd hdone id

/-- The loop is never stuck: whatever it is at, its next step is enabled. -/
theorem loop_enabled : ∃ a s', Rpc.step cid s (.loop a) = some s' := by
  show ∃ a s', Rpc.loopStep s s.loop a = some s'
  cases hloop : s.loop with
  | head => exact ⟨.check, _, if_neg (by simp [hs.running])⟩
  | reading => exact ⟨.noMsg, _, rfl⟩
  | got a => exact ⟨.get, _, rfl⟩
  | found a e => exact ⟨.delete, _, rfl⟩
  | deleted a e =>
    cases e with
    | none => exact ⟨.send, _, rfl⟩
    | some info =>
      obtain ⟨c, hc⟩ := hs.send_ok hloop
      exact ⟨.send, _, by rw [Rpc.loopStep, hc]⟩
  | sent k => exact ⟨.close, _, rfl⟩
  | exited => exact absurd hloop hs.not_exited
  | dead => exact absurd hloop hs.not_dead

end Alive

/-! ## Delivery -/

/-- The reply `a` for `k` is delivered, or `k` has given up, or at most `n` more steps of the loop are
needed. -/
def State.Due (s : State κ δ) (cid : κ → String) (k : κ) (a : Arrival) (n : ℕ) : Prop :=
  ⟨k, a⟩ ∈ s.sent ∨ (s.caller k).TimedOut ∨
    (1 ≤ n ∧ ∃ info, s.loop = .deleted a (some info) ∧ info.call = k) ∨
    (2 ≤ n ∧ ∃ info, s.loop = .found a (some info) ∧ info.call = k) ∨
    (3 ≤ n ∧ s.loop = .got a ∧ s.HasEntry cid k)

/-- A call does not touch the loop or the sends, and changes the state of no other call. -/
theorem callStep_frame {k : κ} {a : CallAct} (h : callStep cid s k (s.caller k) a = some s') :
    s'.sent = s.sent ∧ s'.loop = s.loop ∧ ∀ k', k' ≠ k → s'.caller k' = s.caller k' := by
  have hcaller : ∀ (s : State κ δ) pc k', k' ≠ k → (s.setCaller k pc).caller k' = s.caller k' := by
    intro s pc k' hne
    rw [State.caller_setCaller, if_neg hne]
  generalize s.caller k = pc at h
  cases callStep_eq_some h with
  | clientClosed hdropped => exact ⟨rfl, rfl, hcaller s _⟩
  | check hkept => exact ⟨rfl, rfl, hcaller s _⟩
  | set => exact ⟨rfl, rfl, hcaller _ _⟩
  | publish => exact ⟨rfl, rfl, hcaller s _⟩
  | publishError err => exact ⟨rfl, rfl, hcaller s _⟩
  | recv hrecv => exact ⟨rfl, rfl, hcaller _ _⟩
  | recvClosed hrecv => exact ⟨rfl, rfl, hcaller s _⟩
  | timeout => exact ⟨rfl, rfl, hcaller s _⟩
  | close => exact ⟨rfl, rfl, hcaller _ _⟩
  | delete => exact ⟨rfl, rfl, hcaller _ _⟩
  | setPanic hdropped => exact ⟨rfl, rfl, hcaller s _⟩
  | deletePanic hdropped => exact ⟨rfl, rfl, hcaller s _⟩

/-- A call that has timed out goes on to its deadline. -/
theorem callStep_timedOut (hkept : s.dropped = false) {k : κ} {a : CallAct}
    (h : callStep cid s k (s.caller k) a = some s') (hk : (s.caller k).TimedOut) :
    (s'.caller k).TimedOut := by
  rcases hk with hpc | hpc | hpc <;> rw [hpc] at h <;> cases a <;> try cases h
  · exact .inr (.inl (by simp [State.caller_setCaller]))
  · exact .inr (.inr (by simp [State.caller_setCaller]))
  · simp [callStep, hkept] at h

/-- Only its own timeout takes the entry of a call out of the table. -/
theorem callStep_hasEntry (hcid : Function.Injective cid) {k k' : κ} {a : CallAct}
    (h : callStep cid s k' (s.caller k') a = some s') (hk : s.HasEntry cid k) :
    s'.HasEntry cid k ∨ (s'.caller k).TimedOut := by
  generalize s.caller k' = pc at h
  cases callStep_eq_some h with
  | clientClosed hdropped => exact .inl hk
  | check hkept => exact .inl hk
  | set =>
    refine .inl ?_
    show ∃ info, (s.callinfos.set (cid k') ⟨cid k', k'⟩).1.get (cid k) = some info ∧ info.call = k
    rw [BeeMap.get_set]
    split
    · next heq => exact ⟨_, rfl, (hcid heq).symm⟩
    · exact hk
  | publish => exact .inl hk
  | publishError err => exact .inl hk
  | recv hrecv => exact .inl hk
  | recvClosed hrecv => exact .inl hk
  | timeout => exact .inl hk
  | close => exact .inl hk
  | delete =>
    by_cases heq : k = k'
    · exact .inr (.inr (.inr (by simp [State.caller_setCaller, heq])))
    · obtain ⟨info, hget, hcall⟩ := hk
      exact .inl ⟨info, BeeMap.get_delete_eq_some.mpr ⟨fun h => heq (hcid h), hget⟩, hcall⟩
  | setPanic hdropped => exact .inl hk
  | deletePanic hdropped => exact .inl hk

/-- The loop does not touch the calls and takes no send back. -/
theorem loopStep_frame {a : LoopAct} (h : loopStep s s.loop a = some s') :
    s'.caller = s.caller ∧ s.sent ⊆ s'.sent := by
  generalize s.loop = pc at h
  cases loopStep_eq_some h with
  | send hsend => exact ⟨rfl, List.subset_cons_self _ _⟩
  | exit hclose => exact ⟨rfl, List.Subset.refl _⟩
  | read hopen => exact ⟨rfl, List.Subset.refl _⟩
  | noMsg => exact ⟨rfl, List.Subset.refl _⟩
  | arrive r => exact ⟨rfl, List.Subset.refl _⟩
  | get a => exact ⟨rfl, List.Subset.refl _⟩
  | delete a e => exact ⟨rfl, List.Subset.refl _⟩
  | noEntry a => exact ⟨rfl, List.Subset.refl _⟩
  | sendPanic hsend => exact ⟨rfl, List.Subset.refl _⟩
  | close k => exact ⟨rfl, List.Subset.refl _⟩
  | getPanic a hdropped => exact ⟨rfl, List.Subset.refl _⟩
  | deletePanic a e hdropped => exact ⟨rfl, List.Subset.refl _⟩

section Due

variable (hs : Alive cid s) {k : κ} {a : Arrival} {n : ℕ}
include hs

theorem Alive.due_callStep (hcid : Function.Injective cid) {k' : κ} {act : CallAct}
    (h : Rpc.callStep cid s k' (s.caller k') act = some s') (hdue : s.Due cid k a n) :
    s'.Due cid k a n := by
  obtain ⟨hsent, hloop, hcaller⟩ := callStep_frame h
  unfold State.Due
  rw [hsent, hloop]
  rcases hdue with hdue | hdue | hdue | hdue | ⟨hn, hgot, hentry⟩
  · exact .inl hdue
  · refine .inr (.inl ?_)
    by_cases heq : k = k'
    · subst heq
      exact callStep_timedOut hs.kept h hdue
    · rwa [hcaller k heq]
  · exact .inr (.inr (.inl hdue))
  · exact .inr (.inr (.inr (.inl hdue)))
  · rcases callStep_hasEntry hcid h hentry with hentry | htimedOut
    · exact .inr (.inr (.inr (.inr ⟨hn, hgot, hentry⟩)))
    · exact .inr (.inl htimedOut)

/-- Each step of the loop brings the delivery nearer. -/
theorem Alive.due_loopStep (ha : a.info.cid = cid k) {act : LoopAct}
    (h : Rpc.loopStep s s.loop act = some s') (hdue : s.Due cid k a (n + 1)) :
    s'.Due cid k a n := by
  obtain ⟨hcaller, hsent⟩ := loopStep_frame h
  rcases hdue with hdue | hdue | ⟨hn, info, hloop, rfl⟩ | ⟨hn, info, hloop, rfl⟩ |
    ⟨hn, hloop, info, hget, rfl⟩
  · exact .inl (hsent hdue)
  · exact .inr (.inl (by rwa [hcaller]))
  · -- one step before: the send itself, which succeeds
    rw [hloop] at h
    obtain ⟨c, hc⟩ := hs.send_ok hloop
    cases act <;> try cases h
    simp only [Rpc.loopStep, hc] at h
    obtain rfl := Option.some.inj h
    exact .inl List.mem_cons_self
  · rw [hloop] at h
    cases act <;> try cases h
    · exact .inr (.inr (.inl ⟨by omega, info, rfl, rfl⟩))
    · simp [Rpc.loopStep, hs.kept] at h
  · rw [hloop] at h
    cases act <;> try cases h
    · refine .inr (.inr (.inr (.inl ⟨by omega, info, ?_, rfl⟩)))
      rw [ha, hget]
    · simp [Rpc.loopStep, hs.kept] at h

/-- Along a run, every step of the loop counts. -/
theorem Alive.due_run [DecidableEq δ] (hcid : Function.Injective cid) (ha : a.info.cid = cid k)
    {as : List (Act κ δ)} (hcalm : Along (Rpc.step cid) (fun s a => a.NotDone ∧ Calm s a) s as)
    (hrun : run (Rpc.step cid) s as = some s') (hdue : s.Due cid k a (n + as.countP Act.isLoop)) :
    s'.Due cid k a n := by
  induction as generalizing s with
  | nil =>
    obtain rfl := Option.some.inj hrun
    exact hdue
  | cons act as ih =>
    obtain ⟨s₁, hstep, hrun⟩ := run_cons_eq_some.mp hrun
    obtain ⟨⟨hdone, hact⟩, hcalm⟩ := hcalm
    have hs₁ := hs.step hcid hdone hact hstep
    apply ih hs₁ (hcalm s₁ hstep) hrun
    cases act with
    | call k' c =>
      rw [List.countP_cons_of_neg (by simp [Act.isLoop])] at hdue
      exact hs.due_callStep hcid hstep hdue
    | loop c =>
      rw [List.countP_cons_of_pos (by simp [Act.isLoop]), ← Nat.add_assoc] at hdue
      exact hs.due_loopStep ha hstep hdue
    | done d c => exact absurd hdone id

end Due

/-! ## Survival -/

variable [DecidableEq δ]

/-- In every state of every run without `Done` whose steps avoid the race: the loop has neither died
nor returned and its next step is enabled, and once it has a reply for a call that is waiting and was
not answered before, three more steps of the loop deliver that reply to that call, unless the call
times out first. -/
theorem replyLoop_survives (hcid : Function.Injective cid) {as : List (Act κ δ)}
    (hcalm : Along (step cid) (fun s a => a.NotDone ∧ Calm s a) State.init as)
    (hrun : run (step cid) State.init as = some s) :
    s.loop ≠ .dead ∧ s.loop ≠ .exited ∧ (∃ a s', step cid s (.loop a) = some s') ∧
    ∀ k a, s.loop = .got a → a.info.cid = cid k → (s.caller k).Pending → s.Unsent k →
      ∀ bs s', Along (step cid) (fun s a => a.NotDone ∧ Calm s a) s bs →
        run (step cid) s bs = some s' → 3 ≤ bs.countP Act.isLoop →
        ⟨k, a⟩ ∈ s'.sent ∨ (s'.caller k).TimedOut := by
  have hs : Alive cid s := run_invariant
    (fun s a s' hs hC hstep => hs.step hcid hC.1 hC.2 hstep) alive_init hcalm hrun
  refine ⟨hs.not_dead, hs.not_exited, hs.loop_enabled, ?_⟩
  intro k a hgot ha hpending hunsent bs s' hcalm' hrun' hsteps
  have hentry : s.HasEntry cid k :=
    hs.has_entry k (.inl hpending) hunsent (by simp [hgot, LoopPc.Holds])
  -- the loop has the reply, so `Get`, `Delete` and the send are left
  have hdue : s.Due cid k a (0 + bs.countP Act.isLoop) :=
    .inr (.inr (.inr (.inr ⟨by omega, hgot, hentry⟩)))
  rcases hs.due_run hcid ha hcalm' hrun' hdue with hsent | htimedOut | ⟨hn, -⟩ | ⟨hn, -⟩ | ⟨hn, -⟩
  · exact .inl hsent
  · exact .inr htimedOut
  · omega
  · omega
  · omega

/-- One call, whose reply has arrived. -/
def arrivedRun : List (Act Unit Unit) :=
  [.call () .check, .call () .set, .call () (.publish none), .loop .check,
    .loop (.arrive ⟨"a", "", "", []⟩)]

theorem replyLoop_survives_arrivedRun :
    ∃ s s' : State Unit Unit, run (step fun _ => "a") State.init arrivedRun = some s ∧
      run (step fun _ => "a") s [.loop .get, .loop .delete, .loop .send] = some s' ∧
      s.loop ≠ .dead ∧ ⟨(), ⟨0, "a", "", "", []⟩⟩ ∈ s'.sent := by
  have hcalm : Along (step fun _ => "a") (fun s a => a.NotDone ∧ Calm s a)
      (State.init : State Unit Unit) arrivedRun :=
    .cons ⟨trivial, trivial⟩ rfl (.cons ⟨trivial, trivial⟩ rfl (.cons ⟨trivial, trivial⟩ rfl
      (.cons ⟨trivial, trivial⟩ rfl (.cons ⟨trivial, trivial⟩ rfl .nil))))
  obtain ⟨hdead, -, -, hdeliver⟩ := replyLoop_survives (fun _ _ _ => rfl) hcalm rfl
  refine ⟨_, _, rfl, rfl, hdead, ?_⟩
  refine (hdeliver () _ rfl rfl (.inr rfl) (by rintro d ⟨⟩)
    [.loop .get, .loop .delete, .loop .send] _ ?_ rfl (by decide)).resolve_right ?_
  · refine .cons ⟨trivial, ?_⟩ rfl (.cons ⟨trivial, ?_⟩ rfl (.cons ⟨trivial, trivial⟩ rfl .nil))
    · rintro a info - - ⟨⟩
    · rintro a ⟨⟩
  · rintro (h | h | h) <;> cases h

/-- The first call times out while the loop is between its look-up and its send; the second one is
still waiting. -/
def raceRun : List (Act Bool Unit) :=
  [.call true .check, .call true .set, .call true (.publish none),
    .call false .check, .call false .set, .call false (.publish none), .loop .check,
    .loop (.arrive ⟨"a", "", "", []⟩), .loop .get, .call true .timeout, .call true .close,
    .loop .delete, .loop .send]

/-- The loop is gone without any `Done`, and no reply can reach the call that is still waiting. -/
theorem replyLoop_dies_raceRun :
    (∀ a ∈ raceRun, a.NotDone) ∧
    ∃ s, run (step sampleCid) State.init raceRun = some s ∧ s.loop = .dead ∧
      s.caller false = .waiting ∧ ∀ a, step sampleCid s (.loop a) = none := by
  refine ⟨?_, _, rfl, rfl, rfl, fun a => by cases a <;> rfl⟩
  simp [raceRun, Act.NotDone]

end Vmqant.Rpc
