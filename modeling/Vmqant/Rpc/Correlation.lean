import Vmqant.Rpc.NatsClient

/-!
# Replies reach the call they answer

For every interleaving of calls, timeouts, replies and `Done`: a call only returns a reply with its
own correlation id, a reply reaches at most one call, and at most one value is sent on a callback
channel, so the send of the loop does not block.

Most steps only take something away: an entry of the table, a buffered value, the reply the loop is
working on. `Shrinks` says so and preserves the invariant `Correlated` as a whole; what is left are
the five steps that add something.
-/

namespace Vmqant.Rpc

open Lts

variable {κ δ : Type} {cid : κ → String} {s s' : State κ δ}

/-! ## The invariant -/

/-- The call has not put its entry into the table yet. -/
def CallPc.Early (pc : CallPc) : Prop := pc = .idle ∨ pc = .checked

/-- The loop is working on the reply `a`. -/
def LoopPc.Handling (l : LoopPc κ) (a : Arrival) : Prop :=
  l = .got a ∨ ∃ e, l = .found a e ∨ l = .deleted a e

/-- The loop has looked up the entry `info` for the reply `a` and not yet sent. -/
def LoopPc.Holds (l : LoopPc κ) (a : Arrival) (info : ClinetCallInfo κ) : Prop :=
  l = .found a (some info) ∨ l = .deleted a (some info)

/-- No value was sent on the channel of `k`. -/
def State.Unsent (s : State κ δ) (k : κ) : Prop := ∀ d ∈ s.sent, d.call ≠ k

/-- The invariant of the client: whoever can still lead to a send on a channel (an entry of the
table, the loop, a call that has not started) belongs to a channel nothing was sent on. -/
structure Correlated (cid : κ → String) (s : State κ δ) : Prop where
  entry_cid : ∀ c info, s.callinfos.get c = some info → cid info.call = c
  entry_late : ∀ c info, s.callinfos.get c = some info → ¬ (s.caller info.call).Early
  entry_unsent : ∀ c info, s.callinfos.get c = some info → s.Unsent info.call
  held_cid : ∀ a info, s.loop.Holds a info → cid info.call = a.info.cid
  held_late : ∀ a info, s.loop.Holds a info → ¬ (s.caller info.call).Early
  held_unsent : ∀ a info, s.loop.Holds a info → s.Unsent info.call
  /-- After its `Delete` the loop is the only one that knows the channel. -/
  held_alone : ∀ a info, s.loop = .deleted a (some info) →
    ∀ c info', s.callinfos.get c = some info' → info'.call ≠ info.call
  early_unsent : ∀ k, (s.caller k).Early → s.Unsent k
  buf_sent : ∀ k, ∀ a ∈ (s.chan k).buf, ⟨k, a⟩ ∈ s.sent
  reply_sent : ∀ k a, s.caller k = .returned (.reply a) → ⟨k, a⟩ ∈ s.sent
  sent_cid : ∀ d ∈ s.sent, d.arrival.info.cid = cid d.call
  sent_seq : ∀ d ∈ s.sent, d.arrival.seq < s.arrivals
  handling_seq : ∀ a, s.loop.Handling a → a.seq < s.arrivals
  handling_fresh : ∀ a, s.loop.Handling a → ∀ d ∈ s.sent, d.arrival.seq ≠ a.seq
  calls_nodup : (s.sent.map (·.call)).Nodup
  seqs_nodup : (s.sent.map (·.arrival.seq)).Nodup

theorem correlated_init : Correlated cid (State.init : State κ δ) where
  entry_cid c info h := by simp [State.init] at h
  entry_late c info h := by simp [State.init] at h
  entry_unsent c info h := by simp [State.init] at h
  held_cid a info h := by simp [State.init, LoopPc.Holds] at h
  held_late a info h := by simp [State.init, LoopPc.Holds] at h
  held_unsent a info h := by simp [State.init, LoopPc.Holds] at h
  held_alone a info h := by simp [State.init] at h
  early_unsent k _ := by simp [State.Unsent, State.init]
  buf_sent k a h := by simp [State.init, Chan.make] at h
  reply_sent k a h := by simp [State.init] at h
  sent_cid d h := by simp [State.init] at h
  sent_seq d h := by simp [State.init] at h
  handling_seq a h := by simp [State.init, LoopPc.Handling] at h
  handling_fresh a h := by simp [State.init, LoopPc.Handling] at h
  calls_nodup := by simp [State.init]
  seqs_nodup := by simp [State.init]

/-! ## The steps that only take away -/

/-- Nothing is added to the table, to a channel or to the sends; a call returns a reply only from its
channel; and the loop goes on with what it had or puts it down. -/
structure Shrinks (s s' : State κ δ) : Prop where
  entries : ∀ c info, s'.callinfos.get c = some info → s.callinfos.get c = some info
  early : ∀ k, (s'.caller k).Early → (s.caller k).Early
  reply : ∀ k a, s'.caller k = .returned (.reply a) →
    s.caller k = .returned (.reply a) ∨ a ∈ (s.chan k).buf
  buf : ∀ k, ∀ a ∈ (s'.chan k).buf, a ∈ (s.chan k).buf
  loop : s'.loop = s.loop ∨ ∀ a, ¬ s'.loop.Handling a
  sent : s'.sent = s.sent
  arrivals : s'.arrivals = s.arrivals

theorem LoopPc.Holds.handling {l : LoopPc κ} {a : Arrival} {info : ClinetCallInfo κ}
    (h : l.Holds a info) : l.Handling a := by
  rcases h with h | h
  · exact .inr ⟨_, .inl h⟩
  · exact .inr ⟨_, .inr h⟩

namespace Shrinks

theorem refl (s : State κ δ) : Shrinks s s where
  entries _ _ h := h
  early _ h := h
  reply _ _ h := .inl h
  buf _ _ h := h
  loop := .inl rfl
  sent := rfl
  arrivals := rfl

theorem handling (h : Shrinks s s') {a : Arrival} (ha : s'.loop.Handling a) :
    s.loop.Handling a := by
  rcases h.loop with hloop | hloop
  · rwa [hloop] at ha
  · exact absurd ha (hloop a)

theorem holds (h : Shrinks s s') {a : Arrival} {info : ClinetCallInfo κ}
    (ha : s'.loop.Holds a info) : s.loop.Holds a info := by
  rcases h.loop with hloop | hloop
  · rwa [hloop] at ha
  · exact absurd ha.handling (hloop a)

theorem unsent (h : Shrinks s s') {k : κ} (hk : s.Unsent k) : s'.Unsent k := by
  unfold State.Unsent
  rw [h.sent]
  exact hk

theorem correlated (h : Shrinks s s') (hs : Correlated cid s) : Correlated cid s' where
  entry_cid c info hc := hs.entry_cid c info (h.entries c info hc)
  entry_late c info hc he := hs.entry_late c info (h.entries c info hc) (h.early _ he)
  entry_unsent c info hc := h.unsent (hs.entry_unsent c info (h.entries c info hc))
  held_cid a info ha := hs.held_cid a info (h.holds ha)
  held_late a info ha he := hs.held_late a info (h.holds ha) (h.early _ he)
  held_unsent a info ha := h.unsent (hs.held_unsent a info (h.holds ha))
  held_alone a info ha c info' hc := by
    rcases h.loop with hloop | hloop
    · exact hs.held_alone a info (hloop ▸ ha) c info' (h.entries c info' hc)
    · exact absurd (.inr ⟨_, .inr ha⟩) (hloop a)
  early_unsent k hk := h.unsent (hs.early_unsent k (h.early k hk))
  buf_sent k a ha := by
    rw [h.sent]
    exact hs.buf_sent k a (h.buf k a ha)
  reply_sent k a ha := by
    rw [h.sent]
    rcases h.reply k a ha with ha | ha
    · exact hs.reply_sent k a ha
    · exact hs.buf_sent k a ha
  sent_cid d hd := hs.sent_cid d (h.sent ▸ hd)
  sent_seq d hd := by
    rw [h.arrivals]
    exact hs.sent_seq d (h.sent ▸ hd)
  handling_seq a ha := by
    rw [h.arrivals]
    exact hs.handling_seq a (h.handling ha)
  handling_fresh a ha d hd := hs.handling_fresh a (h.handling ha) d (h.sent ▸ hd)
  calls_nodup := by
    rw [h.sent]
    exact hs.calls_nodup
  seqs_nodup := by
    rw [h.sent]
    exact hs.seqs_nodup

theorem trans {s₁ : State κ δ} (h : Shrinks s s₁) (h₁ : Shrinks s₁ s') : Shrinks s s' where
  entries c info hc := h.entries c info (h₁.entries c info hc)
  early k hk := h.early k (h₁.early k hk)
  reply k a ha := by
    rcases h₁.reply k a ha with ha | ha
    · exact h.reply k a ha
    · exact .inr (h.buf k a ha)
  buf k a ha := h.buf k a (h₁.buf k a ha)
  loop := by
    rcases h₁.loop with hloop | hloop
    · rw [hloop]
      exact h.loop
    · exact .inr hloop
  sent := h₁.sent.trans h.sent
  arrivals := h₁.arrivals.trans h.arrivals

theorem delete (s : State κ δ) (key : String) : Shrinks s (s.delete key) :=
  { refl s with entries := fun _ _ h => (BeeMap.get_delete_eq_some.mp h).2 }

theorem setLoop {l : LoopPc κ} (hl : ∀ a, ¬ l.Handling a) : Shrinks s { s with loop := l } :=
  { refl s with loop := .inr hl }

variable [DecidableEq κ]

theorem setCaller {k : κ} {pc : CallPc} (hearly : pc.Early → (s.caller k).Early)
    (hreply : ∀ a, pc = .returned (.reply a) → a ∈ (s.chan k).buf) :
    Shrinks s (s.setCaller k pc) where
  entries _ _ h := h
  early k' h := by
    by_cases hk : k' = k
    · subst hk
      exact hearly (by simpa [State.setCaller] using h)
    · simpa [State.setCaller, hk] using h
  reply k' a h := by
    by_cases hk : k' = k
    · subst hk
      exact .inr (hreply a (by simpa [State.setCaller] using h))
    · exact .inl (by simpa [State.setCaller, hk] using h)
  buf _ _ h := h
  loop := .inl rfl
  sent := rfl
  arrivals := rfl

theorem setChan {k : κ} {c : Chan Arrival 1} (hc : ∀ a ∈ c.buf, a ∈ (s.chan k).buf) :
    Shrinks s (s.setChan k c) where
  entries _ _ h := h
  early _ h := h
  reply _ _ h := .inl h
  buf k' a h := by
    by_cases hk : k' = k
    · subst hk
      exact hc a (by simpa [State.setChan] using h)
    · simpa [State.setChan, hk] using h
  loop := .inl rfl
  sent := rfl
  arrivals := rfl

theorem closeFch (s : State κ δ) (k : κ) : Shrinks s (s.closeFch k) := setChan fun _ h => h

end Shrinks

/-! ## The steps that add something -/

/-- The loop is at its send and the channel is open and full. -/
def State.SendBlocks (s : State κ δ) : Prop :=
  ∃ a info, s.loop = .deleted a (some info) ∧ (s.chan info.call).send a = .blocked

section Steps

variable (hs : Correlated cid s)
include hs

theorem Correlated.arrive (r : ResultInfo) :
    Correlated cid { s with loop := .got ⟨s.arrivals, r⟩, arrivals := s.arrivals + 1 } :=
  { hs with
    held_cid := by simp [LoopPc.Holds]
    held_late := by simp [LoopPc.Holds]
    held_unsent := by simp [LoopPc.Holds]
    held_alone := by simp
    sent_seq := fun d hd => (hs.sent_seq d hd).trans (Nat.lt_succ_self _)
    handling_seq := fun a ha => by
      obtain rfl : Arrival.mk s.arrivals r = a := by simpa [LoopPc.Handling] using ha
      exact Nat.lt_succ_self _
    handling_fresh := fun a ha d hd => by
      obtain rfl : Arrival.mk s.arrivals r = a := by simpa [LoopPc.Handling] using ha
      exact (hs.sent_seq d hd).ne }

theorem Correlated.get {a : Arrival} (ha : s.loop = .got a) :
    Correlated cid { s with loop := .found a (s.callinfos.get a.info.cid) } := by
  have hheld : ∀ b info, (LoopPc.found a (s.callinfos.get a.info.cid)).Holds b info →
      b = a ∧ s.callinfos.get a.info.cid = some info := by
    intro b info h
    simpa [LoopPc.Holds, eq_comm] using h
  have hhandling : ∀ b, (LoopPc.found a (s.callinfos.get a.info.cid)).Handling b → b = a := by
    intro b h
    simpa [LoopPc.Handling, eq_comm] using h
  exact
    { hs with
      held_cid := fun b info h => by
        obtain ⟨rfl, hinfo⟩ := hheld b info h
        exact hs.entry_cid _ info hinfo
      held_late := fun b info h => by
        obtain ⟨rfl, hinfo⟩ := hheld b info h
        exact hs.entry_late _ info hinfo
      held_unsent := fun b info h => by
        obtain ⟨rfl, hinfo⟩ := hheld b info h
        exact hs.entry_unsent _ info hinfo
      held_alone := by simp
      handling_seq := fun b h => by
        rw [hhandling b h]
        exact hs.handling_seq a (.inl ha)
      handling_fresh := fun b h => by
        rw [hhandling b h]
        exact hs.handling_fresh a (.inl ha) }

theorem Correlated.delete {a : Arrival} {e : Option (ClinetCallInfo κ)}
    (ha : s.loop = .found a e) :
    Correlated cid { s.delete a.info.cid with loop := .deleted a e } := by
  have hd := (Shrinks.delete s a.info.cid).correlated hs
  have hheld : ∀ b info, (LoopPc.deleted a e).Holds b info → s.loop.Holds b info := by
    intro b info h
    obtain ⟨rfl, rfl⟩ : a = b ∧ e = some info := by simpa [LoopPc.Holds] using h
    exact .inl ha
  have hhandling : ∀ b, (LoopPc.deleted a e).Handling b → s.loop.Handling b := by
    intro b h
    obtain rfl : a = b := by simpa [LoopPc.Handling] using h
    exact .inr ⟨e, .inl ha⟩
  exact
    { hd with
      held_cid := fun b info h => hs.held_cid b info (hheld b info h)
      held_late := fun b info h => hs.held_late b info (hheld b info h)
      held_unsent := fun b info h => hs.held_unsent b info (hheld b info h)
      held_alone := fun b info h c info' hc heq => by
        -- an entry of that channel could only be under the key that was deleted
        obtain ⟨hne, hget⟩ := BeeMap.get_delete_eq_some.mp hc
        have hcid := hs.held_cid b info (hheld b info (.inr h))
        obtain ⟨rfl, rfl⟩ : a = b ∧ e = some info := by simpa using h
        rw [← heq, hs.entry_cid c info' hget] at hcid
        exact hne hcid
      handling_seq := fun b h => hs.handling_seq b (hhandling b h)
      handling_fresh := fun b h => hs.handling_fresh b (hhandling b h) }

theorem Correlated.not_sendBlocks : ¬ s.SendBlocks := by
  rintro ⟨a, info, ha, hblocked⟩
  -- nothing was sent on the channel, so nothing is in its buffer
  have hnil : (s.chan info.call).buf = [] := by
    apply List.eq_nil_iff_forall_not_mem.mpr
    intro b hb
    exact hs.held_unsent a info (.inr ha) _ (hs.buf_sent _ b hb) rfl
  cases hclosed : (s.chan info.call).closed with
  | true =>
    rw [Chan.send_eq_panic.mpr hclosed] at hblocked
    cases hblocked
  | false =>
    obtain ⟨c, hc⟩ := Chan.send_of_nil a hclosed hnil
    rw [hc] at hblocked
    cases hblocked

variable [DecidableEq κ]

theorem Correlated.set {k : κ} (hk : s.caller k = .checked) :
    Correlated cid ({ s with callinfos := (s.callinfos.set (cid k) ⟨cid k, k⟩).1 }.setCaller k
      .registered) := by
  have hearly : (s.caller k).Early := .inr hk
  have hunsent := hs.early_unsent k hearly
  -- an entry of the new table is the new one or an old one, and the old ones are not of `k`
  have hentry : ∀ c info, (s.callinfos.set (cid k) ⟨cid k, k⟩).1.get c = some info →
      (c = cid k ∧ info.call = k) ∨ (s.callinfos.get c = some info ∧ info.call ≠ k) := by
    intro c info h
    rw [BeeMap.get_set] at h
    split at h
    · next hc =>
      obtain rfl := Option.some.inj h
      exact .inl ⟨hc, rfl⟩
    · refine .inr ⟨h, ?_⟩
      rintro rfl
      exact hs.entry_late c info h hearly
  have hother : ∀ a info, s.loop.Holds a info → info.call ≠ k := by
    rintro a info ha rfl
    exact hs.held_late a info ha hearly
  have hearly' : ∀ k', (Function.update s.caller k .registered k').Early → (s.caller k').Early := by
    intro k' h
    by_cases hk' : k' = k
    · subst hk'
      exact hearly
    · simpa [hk'] using h
  have hlate : ¬ (Function.update s.caller k CallPc.registered k).Early := by simp [CallPc.Early]
  exact
    { hs with
      entry_cid := fun c info h => by
        rcases hentry c info h with ⟨rfl, rfl⟩ | ⟨h, -⟩
        · rfl
        · exact hs.entry_cid c info h
      entry_late := fun c info h he => by
        rcases hentry c info h with ⟨-, rfl⟩ | ⟨h, -⟩
        · exact hlate he
        · exact hs.entry_late c info h (hearly' _ he)
      entry_unsent := fun c info h => by
        rcases hentry c info h with ⟨-, rfl⟩ | ⟨h, -⟩
        · exact hunsent
        · exact hs.entry_unsent c info h
      held_late := fun a info ha he => hs.held_late a info ha (hearly' _ he)
      held_alone := fun a info ha c info' h => by
        rcases hentry c info' h with ⟨-, hk'⟩ | ⟨h, -⟩
        · rw [hk']
          exact (hother a info (.inr ha)).symm
        · exact hs.held_alone a info ha c info' h
      early_unsent := fun k' h => hs.early_unsent k' (hearly' k' h)
      reply_sent := fun k' a h => by
        by_cases hk' : k' = k
        · subst hk'
          simp [State.setCaller] at h
        · exact hs.reply_sent k' a (by simpa [State.setCaller, hk'] using h) }

theorem Correlated.send {a : Arrival} {info : ClinetCallInfo κ} {c : Chan Arrival 1}
    (ha : s.loop = .deleted a (some info)) (hsend : (s.chan info.call).send a = .ok c) :
    Correlated cid { s.setChan info.call c with
      loop := .sent info.call, sent := ⟨info.call, a⟩ :: s.sent } := by
  have hunsent := hs.held_unsent a info (.inr ha)
  -- the send changes what was sent for the call of `info` only
  have hcons : ∀ k, k ≠ info.call → s.Unsent k →
      ∀ d ∈ (⟨info.call, a⟩ : Delivery κ) :: s.sent, d.call ≠ k := by
    intro k hne hk d hd
    rcases List.mem_cons.mp hd with rfl | hd
    · exact hne.symm
    · exact hk d hd
  exact
    { hs with
      entry_unsent := fun c' info' h =>
        hcons _ (hs.held_alone a info ha c' info' h) (hs.entry_unsent c' info' h)
      held_cid := by simp [LoopPc.Holds]
      held_late := by simp [LoopPc.Holds]
      held_unsent := by simp [LoopPc.Holds]
      held_alone := by simp
      early_unsent := fun k hk => by
        refine hcons k ?_ (hs.early_unsent k hk)
        rintro rfl
        exact hs.held_late a info (.inr ha) hk
      buf_sent := fun k b hb => by
        by_cases hk : k = info.call
        · subst hk
          have hb' : b ∈ c.buf := by simpa [State.setChan] using hb
          rw [(Chan.send_eq_ok hsend).2.1, List.mem_append, List.mem_singleton] at hb'
          rcases hb' with hb' | rfl
          · exact List.mem_cons_of_mem _ (hs.buf_sent _ b hb')
          · exact List.mem_cons_self
        · have hb' : b ∈ (s.chan k).buf := by simpa [State.setChan, hk] using hb
          exact List.mem_cons_of_mem _ (hs.buf_sent k b hb')
      reply_sent := fun k b h => List.mem_cons_of_mem _ (hs.reply_sent k b h)
      sent_cid := by
        rintro d hd
        rcases List.mem_cons.mp hd with rfl | hd
        · exact (hs.held_cid a info (.inr ha)).symm
        · exact hs.sent_cid d hd
      sent_seq := by
        intro d hd
        rcases List.mem_cons.mp hd with rfl | hd
        · exact hs.handling_seq a (.inr ⟨_, .inr ha⟩)
        · exact hs.sent_seq d hd
      handling_seq := by simp [LoopPc.Handling]
      handling_fresh := by simp [LoopPc.Handling]
      calls_nodup := by
        rw [List.map_cons, List.nodup_cons]
        refine ⟨?_, hs.calls_nodup⟩
        intro hmem
        obtain ⟨d, hd, hcall⟩ := List.mem_map.mp hmem
        exact hunsent d hd hcall
      seqs_nodup := by
        rw [List.map_cons, List.nodup_cons]
        refine ⟨?_, hs.seqs_nodup⟩
        intro hmem
        obtain ⟨d, hd, hseq⟩ := List.mem_map.mp hmem
        exact hs.handling_fresh a (.inr ⟨_, .inr ha⟩) d hd hseq }

end Steps

/-! ## What a step can do -/

variable [DecidableEq κ]

/-- A call adds something only when it enters the table. -/
theorem callStep_cases {k : κ} {a : CallAct} (h : callStep cid s k (s.caller k) a = some s') :
    Shrinks s s' ∨ (s.caller k = .checked ∧
      s' = { s with callinfos := (s.callinfos.set (cid k) ⟨cid k, k⟩).1 }.setCaller k
        .registered) := by
  generalize hpc : s.caller k = pc at h
  cases callStep_eq_some h with
  | clientClosed hdropped => exact .inl (.setCaller (by simp [CallPc.Early]) (by simp))
  | check hkept => exact .inl (.setCaller (by simp [CallPc.Early, hpc]) (by simp))
  | set => exact .inr ⟨rfl, rfl⟩
  | publish => exact .inl (.setCaller (by simp [CallPc.Early]) (by simp))
  | publishError err => exact .inl (.setCaller (by simp [CallPc.Early]) (by simp))
  | @recv a c hrecv =>
    have hbuf := (Chan.recv_eq_value hrecv).1
    have hcaller : Shrinks s (s.setCaller k (.returned (.reply a))) :=
      .setCaller (by simp [CallPc.Early]) (by simp [hbuf])
    exact .inl (hcaller.trans (.setChan fun b hb => by simp [State.setCaller, hbuf, hb]))
  | recvClosed hrecv => exact .inl (.setCaller (by simp [CallPc.Early]) (by simp))
  | timeout => exact .inl (.setCaller (by simp [CallPc.Early]) (by simp))
  | close =>
    exact .inl ((Shrinks.closeFch s k).trans (.setCaller (by simp [CallPc.Early]) (by simp)))
  | delete =>
    exact .inl ((Shrinks.delete s _).trans (.setCaller (by simp [CallPc.Early]) (by simp)))
  | setPanic hdropped => exact .inl (.setCaller (by simp [CallPc.Early]) (by simp))
  | deletePanic hdropped => exact .inl (.setCaller (by simp [CallPc.Early]) (by simp))

/-- The loop adds something when a reply arrives, when it looks the reply up, when it deletes the
entry and when it sends. -/
theorem loopStep_cases {a : LoopAct} (h : loopStep s s.loop a = some s') :
    Shrinks s s' ∨
    (∃ r, s' = { s with loop := .got ⟨s.arrivals, r⟩, arrivals := s.arrivals + 1 }) ∨
    (∃ a, s.loop = .got a ∧ s' = { s with loop := .found a (s.callinfos.get a.info.cid) }) ∨
    (∃ a e, s.loop = .found a e ∧ s' = { s.delete a.info.cid with loop := .deleted a e }) ∨
    ∃ a info c, s.loop = .deleted a (some info) ∧ (s.chan info.call).send a = .ok c ∧
      s' = { s.setChan info.call c with
        loop := .sent info.call, sent := ⟨info.call, a⟩ :: s.sent } := by
  have hidle : ∀ {l : LoopPc κ}, l = .head ∨ l = .reading ∨ l = .exited ∨ l = .dead →
      ∀ a, ¬ l.Handling a := by
    rintro l (rfl | rfl | rfl | rfl) a <;> simp [LoopPc.Handling]
  generalize hpc : s.loop = pc at h
  cases loopStep_eq_some h with
  | exit hclose => exact .inl (.setLoop (hidle (by simp)))
  | read hopen => exact .inl (.setLoop (hidle (by simp)))
  | noMsg => exact .inl (.setLoop (hidle (by simp)))
  | arrive r => exact .inr (.inl ⟨r, rfl⟩)
  | get a => exact .inr (.inr (.inl ⟨a, rfl, rfl⟩))
  | delete a e => exact .inr (.inr (.inr (.inl ⟨a, e, rfl, rfl⟩)))
  | noEntry a => exact .inl (.setLoop (hidle (by simp)))
  | send hsend => exact .inr (.inr (.inr (.inr ⟨_, _, _, rfl, hsend, rfl⟩)))
  | sendPanic hsend => exact .inl (.setLoop (hidle (by simp)))
  | close k => exact .inl ((Shrinks.closeFch s k).trans (.setLoop (hidle (by simp))))
  | getPanic a hdropped => exact .inl (.setLoop (hidle (by simp)))
  | deletePanic a e hdropped => exact .inl (.setLoop (hidle (by simp)))

variable [DecidableEq δ]

/-- `Done` only closes and deletes. -/
theorem doneStep_shrinks {d : δ} {a : DoneAct κ} (h : doneStep s d (s.done d) a = some s') :
    Shrinks s s' := by
  have hdone : ∀ (s : State κ δ) pc, Shrinks s (s.setDone d pc) := fun s pc => { Shrinks.refl s with }
  generalize s.done d = pc at h
  cases doneStep_eq_some h with
  | items hperm => exact hdone s _
  | close key info rest => exact (Shrinks.closeFch s _).trans (hdone _ _)
  | delete key rest => exact (Shrinks.delete s _).trans (hdone _ _)
  | clear => exact { Shrinks.refl s with }
  | signal hfirst => exact { Shrinks.refl s with }
  | finish => exact { Shrinks.refl s with }
  | itemsPanic hdropped => exact hdone s _
  | deletePanic key rest hdropped => exact hdone s _

theorem Correlated.step (hs : Correlated cid s) {a : Act κ δ} (h : Rpc.step cid s a = some s') :
    Correlated cid s' := by
  cases a with
  | call k a =>
    rcases callStep_cases h with hshrink | ⟨hk, rfl⟩
    · exact hshrink.correlated hs
    · exact hs.set hk
  | loop a =>
    rcases loopStep_cases h with hshrink | ⟨r, rfl⟩ | ⟨b, hb, rfl⟩ | ⟨b, e, hb, rfl⟩ |
      ⟨b, info, c, hb, hsend, rfl⟩
    · exact hshrink.correlated hs
    · exact hs.arrive r
    · exact hs.get hb
    · exact hs.delete hb
    · exact hs.send hb hsend
  | done d a => exact (doneStep_shrinks h).correlated hs

theorem Correlated.of_reachable (h : Reachable (Rpc.step cid) State.init s) :
    Correlated cid s :=
  reachable_invariant correlated_init (fun _ _ _ hs hstep => hs.step hstep) h

/-! ## Correlation -/

/-- In every state of every interleaving: a call that returns a reply was sent it on its channel, and
the reply has its correlation id; two sends of the same reply (the same arrival, or two arrivals with
the same content) are to the same call; no two sends are on the same channel; and the loop does not
block at its send. -/
theorem reply_correlation (hcid : Function.Injective cid)
    (h : Reachable (step cid) State.init s) :
    (∀ k a, s.caller k = .returned (.reply a) → ⟨k, a⟩ ∈ s.sent ∧ a.info.cid = cid k) ∧
    (∀ d ∈ s.sent, ∀ d' ∈ s.sent,
      d.arrival.seq = d'.arrival.seq ∨ d.arrival.info = d'.arrival.info → d.call = d'.call) ∧
    (s.sent.map (·.call)).Nodup ∧ ¬ s.SendBlocks := by
  have hs := Correlated.of_reachable h
  refine ⟨fun k a hk => ?_, fun d hd d' hd' hsame => ?_, hs.calls_nodup, hs.not_sendBlocks⟩
  · -- a reply that is returned was taken from the buffer, and that was filled by a send
    have hsent := hs.reply_sent k a hk
    exact ⟨hsent, hs.sent_cid _ hsent⟩
  · rcases hsame with hseq | hinfo
    · rw [List.inj_on_of_nodup_map hs.seqs_nodup hd hd' hseq]
    · apply hcid
      rw [← hs.sent_cid d hd, ← hs.sent_cid d' hd', hinfo]

/-- Two calls with the ids `"a"` and `"b"`. -/
def sampleCid (k : Bool) : String := cond k "a" "b"

/-- The first call is answered while the second one times out and the client is closed. -/
def sampleRun : List (Act Bool Unit) :=
  [.call true .check, .call false .check, .call true .set, .call false .set,
    .call true (.publish none), .call false (.publish none), .loop .check,
    .loop (.arrive ⟨"a", "", "", []⟩), .loop .get, .call false .timeout, .loop .delete,
    .call false .close, .loop .send, .done () (.items [("b", ⟨"b", false⟩)]),
    .call true .recv, .call false .delete, .loop .close]

theorem reply_correlation_sampleRun :
    ∃ s : State Bool Unit, run (step sampleCid) State.init sampleRun = some s ∧
      s.caller true = .returned (.reply ⟨0, "a", "", "", []⟩) ∧
      (s.sent.map (·.call)).Nodup ∧ ¬ s.SendBlocks := by
  have hcid : Function.Injective sampleCid := by
    intro k k' h
    revert h
    cases k <;> cases k' <;> decide
  refine ⟨_, rfl, rfl, ?_⟩
  exact (reply_correlation hcid ⟨sampleRun, rfl⟩).2.2

end Vmqant.Rpc
