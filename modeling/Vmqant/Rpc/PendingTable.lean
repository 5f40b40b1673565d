import Vmqant.Rpc.Correlation

/-!
# The table of pending calls

A call puts its entry into the table before it marshals and publishes the request. The entry is taken
out by the loop, by the timeout of the call or by `Done`, but not when the request cannot be sent; and
`Done` closes the channel of a call before it deletes its entry, so the call can return in between.
`Tidy` rules out these two ways, and then no call leaves an entry behind.
-/

namespace Vmqant.Rpc

open Lts

variable {κ δ : Type} {cid : κ → String} {s s' : State κ δ}

/-- The id of the call `k` is not in the table, or `c.callinfos` is `nil`. -/
def State.Gone (s : State κ δ) (cid : κ → String) (k : κ) : Prop :=
  s.dropped = true ∨ s.callinfos.get (cid k) = none

/-- What is left of the copied table. -/
def DonePc.items : DonePc κ → List (String × ClinetCallInfo κ)
  | .closing items => items
  | .deleting _ items => items
  | _ => []

/-- The request of a live client is marshalled and published; and a call does not receive from its
closed channel while a `Done` invocation is between the close and the delete of its entry. -/
def Tidy (cid : κ → String) (s : State κ δ) : Act κ δ → Prop
  | .call _ (.publish (some _)) => s.dropped = true
  | .call k .recv => (s.chan k).buf = [] →
    s.dropped = true ∨ ∀ d rest, s.done d ≠ .deleting (cid k) rest
  | _ => True

/-- The invariant of a tidy run. -/
structure Tabled (cid : κ → String) (s : State κ δ) : Prop where
  items_cid : ∀ d, ∀ p ∈ (s.done d).items, cid p.2.call = p.1
  items_late : ∀ d, ∀ p ∈ (s.done d).items, ¬ (s.caller p.2.call).Early
  sent_late : ∀ k, s.loop = .sent k → ¬ s.Unsent k
  closed_late : ∀ k, (s.chan k).closed = true → ¬ (s.caller k).Early
  /-- Whoever closed the channel of a call with an entry is about to delete the entry. -/
  closed : ∀ k, (s.chan k).closed = true → s.Gone cid k ∨ s.caller k = .closing ∨
    ∃ d rest, s.done d = .deleting (cid k) rest
  returned : ∀ k o, s.caller k = .returned o → s.Gone cid k

theorem tabled_init : Tabled cid (State.init : State κ δ) where
  items_cid d p h := by simp [State.init, DonePc.items] at h
  items_late d p h := by simp [State.init, DonePc.items] at h
  sent_late k h := by simp [State.init] at h
  closed_late k h := by simp [State.init, Chan.make] at h
  closed k h := by simp [State.init, Chan.make] at h
  returned k o h := by simp [State.init] at h

/-- The channel of a call with an entry has not been used. -/
theorem Correlated.gone_of_sent (hcid : Function.Injective cid) (hs : Correlated cid s) {k : κ}
    (hsent : ¬ s.Unsent k) : s.Gone cid k := by
  right
  cases hget : s.callinfos.get (cid k) with
  | none => rfl
  | some info =>
    obtain rfl : info.call = k := hcid (hs.entry_cid _ info hget)
    exact absurd (hs.entry_unsent _ info hget) hsent

/-! ## The steps, one by one -/

namespace Tabled

theorem delete (hs : Tabled cid s) (key : String) : Tabled cid (s.delete key) := by
  have hgone : ∀ k, s.Gone cid k → (s.delete key).Gone cid k := by
    rintro k (hdropped | hget)
    · exact .inl hdropped
    · right
      change (s.callinfos.delete key).get (cid k) = none
      rw [BeeMap.get_delete, hget, ite_self]
  exact
    { hs with
      closed := fun k h => (hs.closed k h).imp_left (hgone k)
      returned := fun k o h => hgone k (hs.returned k o h) }

/-- The loop moves on. -/
theorem setLoop (hs : Tabled cid s) {l : LoopPc κ} {n : ℕ} {sent : List (Delivery κ)}
    (hl : ∀ k, l = .sent k → ∃ d ∈ sent, d.call = k) :
    Tabled cid { s with loop := l, arrivals := n, sent := sent } :=
  { hs with
    sent_late := fun k h hunsent => by
      obtain ⟨d, hd, hcall⟩ := hl k h
      exact hunsent d hd hcall }

/-- `Done` sets `c.callinfos` to `nil`. -/
theorem drop (hs : Tabled cid s) : Tabled cid { s with dropped := true } :=
  { hs with
    closed := fun _ _ => .inl (.inl rfl)
    returned := fun _ _ _ => .inl rfl }

/-- `Done` moves on. It leaves `deleting` with the entry gone only. -/
theorem setDone [DecidableEq δ] (hs : Tabled cid s) {d : δ} {pc : DonePc κ}
    (hcids : ∀ p ∈ pc.items, cid p.2.call = p.1)
    (hlates : ∀ p ∈ pc.items, ¬ (s.caller p.2.call).Early)
    (hdeleting : ∀ k rest, s.done d = .deleting (cid k) rest → s.Gone cid k) :
    Tabled cid (s.setDone d pc) := by
  have hdone : ∀ d', (s.setDone d pc).done d' = if d' = d then pc else s.done d' := fun d' =>
    Function.update_apply s.done d pc d'
  exact
    { hs with
      items_cid := fun d' => by
        rw [hdone]
        split
        · exact hcids
        · exact hs.items_cid d'
      items_late := fun d' => by
        rw [hdone]
        split
        · exact hlates
        · exact hs.items_late d'
      closed := fun k h => by
        rcases hs.closed k h with hgone | hclosing | ⟨d', rest, hd'⟩
        · exact .inl hgone
        · exact .inr (.inl hclosing)
        · by_cases hdd : d' = d
          · rw [hdd] at hd'
            exact .inl (hdeleting k rest hd')
          · refine .inr (.inr ⟨d', rest, ?_⟩)
            rw [hdone, if_neg hdd]
            exact hd' }

variable [DecidableEq κ]

/-- A call moves on. It leaves `closing` with its entry gone only, and so it returns. -/
theorem setCaller (hs : Tabled cid s) {k : κ} {pc : CallPc}
    (hearly : pc.Early → (s.caller k).Early)
    (hclosing : s.caller k = .closing → s.Gone cid k)
    (hreturned : ∀ o, pc = .returned o → s.Gone cid k) : Tabled cid (s.setCaller k pc) := by
  have hearly' : ∀ k', ((s.setCaller k pc).caller k').Early → (s.caller k').Early := by
    intro k' h
    rw [State.caller_setCaller] at h
    split at h
    · next hk =>
      rw [hk]
      exact hearly h
    · exact h
  exact
    { hs with
      items_late := fun d p hp h => hs.items_late d p hp (hearly' _ h)
      closed_late := fun k' hclosed h => hs.closed_late k' hclosed (hearly' k' h)
      closed := fun k' h => by
        rw [State.caller_setCaller]
        split
        · next hk =>
          subst hk
          rcases hs.closed k' h with hgone | hpc | hdone
          · exact .inl hgone
          · exact .inl (hclosing hpc)
          · exact .inr (.inr hdone)
        · exact hs.closed k' h
      returned := fun k' o h => by
        rw [State.caller_setCaller] at h
        split at h
        · next hk =>
          rw [hk]
          exact hreturned o h
        · exact hs.returned k' o h }

/-- A channel changes and is not closed. -/
theorem setChan (hs : Tabled cid s) {k : κ} {c : Chan Arrival 1}
    (hc : c.closed = true → (s.chan k).closed = true) : Tabled cid (s.setChan k c) := by
  have hclosed : ∀ k', ((s.setChan k c).chan k').closed = true → (s.chan k').closed = true := by
    intro k' h
    rw [State.chan_setChan] at h
    split at h
    · next hk =>
      rw [hk]
      exact hc h
    · exact h
  exact
    { hs with
      closed_late := fun k' h => hs.closed_late k' (hclosed k' h)
      closed := fun k' h => hs.closed k' (hclosed k' h) }

/-- A channel is closed by one who is about to delete the entry. -/
theorem closeFch (hs : Tabled cid s) {k : κ} (hlate : ¬ (s.caller k).Early)
    (hwho : s.Gone cid k ∨ s.caller k = .closing ∨ ∃ d rest, s.done d = .deleting (cid k) rest) :
    Tabled cid (s.closeFch k) := by
  have hclosed : ∀ k', ((s.closeFch k).chan k').closed = true →
      k' = k ∨ (s.chan k').closed = true := by
    intro k' h
    by_cases hk : k' = k
    · exact .inl hk
    · rw [State.closeFch, State.chan_setChan, if_neg hk] at h
      exact .inr h
  exact
    { hs with
      closed_late := fun k' h => by
        rcases hclosed k' h with rfl | h
        · exact hlate
        · exact hs.closed_late k' h
      closed := fun k' h => by
        rcases hclosed k' h with rfl | h
        · exact hwho
        · exact hs.closed k' h }

/-- A call enters the table: its channel is open, and it has an id of its own. -/
theorem set (hcid : Function.Injective cid) (hs : Tabled cid s) {k : κ}
    (hk : s.caller k = .checked) :
    Tabled cid ({ s with callinfos := (s.callinfos.set (cid k) ⟨cid k, k⟩).1 }.setCaller k
      .registered) := by
  have hearly : (s.caller k).Early := .inr hk
  have hopen : (s.chan k).closed ≠ true := fun h => hs.closed_late k h hearly
  have hgone : ∀ k', k' ≠ k → s.Gone cid k' →
      State.Gone { s with callinfos := (s.callinfos.set (cid k) ⟨cid k, k⟩).1 } cid k' := by
    rintro k' hne (hdropped | hget)
    · exact .inl hdropped
    · right
      change (s.callinfos.set (cid k) ⟨cid k, k⟩).1.get (cid k') = none
      rw [BeeMap.get_set, if_neg (fun h => hne (hcid h))]
      exact hget
  -- the table changes for `k` alone, which is neither closed nor returned
  have htable : Tabled cid { s with callinfos := (s.callinfos.set (cid k) ⟨cid k, k⟩).1 } :=
    { hs with
      closed := fun k' h => by
        have hne : k' ≠ k := by
          rintro rfl
          exact hopen h
        exact (hs.closed k' h).imp_left (hgone k' hne)
      returned := fun k' o h => by
        have hne : k' ≠ k := by
          rintro rfl
          rw [hk] at h
          cases h
        exact hgone k' hne (hs.returned k' o h) }
  refine htable.setCaller (fun h => ?_) (fun h => ?_) (fun o h => ?_)
  · simp [CallPc.Early] at h
  · change s.caller k = .closing at h
    rw [hk] at h
    cases h
  · cases h

/-! ## The steps of the actors -/

theorem callStep (hcid : Function.Injective cid) (hcorr : Correlated cid s) (hs : Tabled cid s)
    {k : κ} {a : CallAct} (htidy : Tidy cid s (.call k a))
    (h : callStep cid s k (s.caller k) a = some s') : Tabled cid s' := by
  generalize hpc : s.caller k = pc at h
  -- away from `closing` nothing is asked of a call that does not return
  have hmove : ∀ {pc'}, pc ≠ .closing → ¬ pc'.Early → (∀ o, pc' ≠ .returned o) →
      Tabled cid (s.setCaller k pc') := fun hclosing hearly hreturned =>
    hs.setCaller (fun h => absurd h hearly) (fun h => absurd (hpc.symm.trans h) hclosing)
      (fun o h => absurd h (hreturned o))
  have hreturn : ∀ {o}, s.Gone cid k → Tabled cid (s.setCaller k (.returned o)) := fun hgone =>
    hs.setCaller (by simp [CallPc.Early]) (fun _ => hgone) (fun _ _ => hgone)
  cases callStep_eq_some h with
  | clientClosed hdropped => exact hreturn (.inl hdropped)
  | check hkept => exact hs.setCaller (fun _ => .inl hpc) (by simp [hpc]) (by simp)
  | set => exact hs.set hcid hpc
  | publish => exact hmove (by simp) (by simp [CallPc.Early]) (by simp)
  | publishError err => exact hreturn (.inl htidy)
  | @recv a c hrecv =>
    -- a buffered reply was sent by the loop, which had deleted the entry
    obtain ⟨hbuf, hclosed⟩ := Chan.recv_eq_value hrecv
    have hsent : ¬ s.Unsent k := fun hunsent =>
      hunsent _ (hcorr.buf_sent k a (by simp [hbuf])) rfl
    have hchan : Tabled cid (s.setChan k c) := hs.setChan (by simp [hclosed])
    exact hchan.setCaller (by simp [CallPc.Early]) (fun _ => hcorr.gone_of_sent hcid hsent)
      (fun _ _ => hcorr.gone_of_sent hcid hsent)
  | recvClosed hrecv =>
    -- the closed channel: it was closed by `Done`, which has deleted the entry, too
    obtain ⟨hbuf, hclosed⟩ := Chan.recv_eq_closed hrecv
    apply hreturn
    rcases hs.closed k hclosed with hgone | hclosing | ⟨d, rest, hd⟩
    · exact hgone
    · exact absurd (hpc.symm.trans hclosing) (by simp)
    · rcases htidy hbuf with hdropped | hdone
      · exact .inl hdropped
      · exact absurd hd (hdone d rest)
  | timeout => exact hmove (by simp) (by simp [CallPc.Early]) (by simp)
  | close =>
    have hcaller : Tabled cid (s.setCaller k .closing) :=
      hmove (by simp) (by simp [CallPc.Early]) (by simp)
    have hclosing : (s.setCaller k .closing).caller k = .closing := by
      rw [State.caller_setCaller, if_pos rfl]
    exact hcaller.closeFch (by simp [hclosing, CallPc.Early]) (.inr (.inl hclosing))
  | delete =>
    have hgone : (s.delete (cid k)).Gone cid k := by
      right
      change (s.callinfos.delete (cid k)).get (cid k) = none
      rw [BeeMap.get_delete, if_pos rfl]
    exact (hs.delete (cid k)).setCaller (by simp [CallPc.Early]) (fun _ => hgone) (fun _ _ => hgone)
  | setPanic hdropped => exact hmove (by simp) (by simp [CallPc.Early]) (by simp)
  | deletePanic hdropped =>
    exact hs.setCaller (by simp [CallPc.Early]) (fun _ => .inl hdropped) (by simp)

theorem loopStep (hcid : Function.Injective cid) (hcorr : Correlated cid s) (hs : Tabled cid s)
    {a : LoopAct} (h : loopStep s s.loop a = some s') : Tabled cid s' := by
  generalize hpc : s.loop = pc at h
  have hmove : ∀ {l : LoopPc κ} {n}, (∀ k, l ≠ .sent k) →
      Tabled cid { s with loop := l, arrivals := n } := fun hl =>
    hs.setLoop (fun k h => absurd h (hl k))
  cases loopStep_eq_some h with
  | exit hclose => exact hmove (by simp)
  | read hopen => exact hmove (by simp)
  | noMsg => exact hmove (by simp)
  | arrive r => exact hmove (by simp)
  | get a => exact hmove (by simp)
  | delete a e => exact (hs.delete _).setLoop (by simp)
  | noEntry a => exact hmove (by simp)
  | @send a info c hsend =>
    have hchan : Tabled cid (s.setChan info.call c) :=
      hs.setChan (by simp [(Chan.send_eq_ok hsend).2.2])
    exact hchan.setLoop (fun k hk => ⟨_, List.mem_cons_self, LoopPc.sent.inj hk⟩)
  | sendPanic hsend => exact hmove (by simp)
  | close k =>
    -- the close after a send: the entry is gone
    have hsent := hs.sent_late k hpc
    have hclose : Tabled cid (s.closeFch k) :=
      hs.closeFch (fun hearly => hsent (hcorr.early_unsent k hearly))
        (.inl (hcorr.gone_of_sent hcid hsent))
    exact hclose.setLoop (by simp)
  | getPanic a hdropped => exact hmove (by simp)
  | deletePanic a e hdropped => exact hmove (by simp)

variable [DecidableEq δ]

theorem doneStep (hcorr : Correlated cid s) (hs : Tabled cid s) {d : δ} {a : DoneAct κ}
    (h : doneStep s d (s.done d) a = some s') : Tabled cid s' := by
  generalize hpc : s.done d = pc at h
  have hcids := hs.items_cid d
  have hlates := hs.items_late d
  rw [hpc] at hcids hlates
  -- away from `deleting`, and with nothing left to go through
  have hmove : ∀ {pc'}, (∀ key rest, pc ≠ .deleting key rest) → pc'.items = [] →
      Tabled cid (s.setDone d pc') := fun hpc' hitems =>
    hs.setDone (by simp [hitems]) (by simp [hitems])
      (fun k rest h => absurd (hpc.symm.trans h) (hpc' _ _))
  cases doneStep_eq_some h with
  | @items l hperm =>
    -- the items are entries of the table
    have hentry : ∀ p ∈ l, s.callinfos.get p.1 = some p.2 := fun p hp =>
      BeeMap.get_of_mem_items (hperm.mem_iff.mp hp)
    exact hs.setDone (fun p hp => hcorr.entry_cid _ _ (hentry p hp))
      (fun p hp => hcorr.entry_late _ _ (hentry p hp))
      (fun k rest h => absurd (hpc.symm.trans h) (by simp))
  | close key info rest =>
    have hkey : cid info.call = key := hcids (key, info) List.mem_cons_self
    have hdone : Tabled cid (s.setDone d (.deleting key rest)) :=
      hs.setDone (fun p hp => hcids p (List.mem_cons_of_mem _ hp))
        (fun p hp => hlates p (List.mem_cons_of_mem _ hp))
        (fun k rest h => absurd (hpc.symm.trans h) (by simp))
    refine hdone.closeFch (hlates (key, info) List.mem_cons_self) (.inr (.inr ⟨d, rest, ?_⟩))
    rw [hkey]
    exact Function.update_self ..
  | delete key rest =>
    refine (hs.delete key).setDone hcids hlates (fun k rest' hk => ?_)
    obtain ⟨rfl, -⟩ : key = cid k ∧ rest = rest' := by
      simpa using hpc.symm.trans hk
    right
    change (s.callinfos.delete (cid k)).get (cid k) = none
    rw [BeeMap.get_delete, if_pos rfl]
  | clear =>
    exact hs.drop.setDone (by simp [DonePc.items]) (by simp [DonePc.items]) (fun _ _ _ => .inl rfl)
  | signal hfirst =>
    have hs' : Tabled cid (s.setDone d .signalled) := hmove (by simp) rfl
    exact { hs' with }
  | finish =>
    have hs' : Tabled cid (s.setDone d .finished) := hmove (by simp) rfl
    exact { hs' with }
  | itemsPanic hdropped => exact hmove (by simp) rfl
  | deletePanic key rest hdropped =>
    exact hs.setDone (by simp [DonePc.items]) (by simp [DonePc.items])
      (fun _ _ _ => .inl hdropped)

theorem step (hcid : Function.Injective cid) (hcorr : Correlated cid s) (hs : Tabled cid s)
    {a : Act κ δ} (htidy : Tidy cid s a) (h : step cid s a = some s') : Tabled cid s' := by
  cases a with
  | call k a => exact hs.callStep hcid hcorr htidy h
  | loop a => exact hs.loopStep hcid hcorr h
  | done d a => exact hs.doneStep hcorr h

end Tabled

/-! ## No entry is left behind -/

variable [DecidableEq κ]

/-- A step of a call changes its own entry only. -/
theorem callStep_get {k : κ} {a : CallAct} (h : callStep cid s k (s.caller k) a = some s')
    {c : String} (hc : c ≠ cid k) : s'.callinfos.get c = s.callinfos.get c := by
  generalize s.caller k = pc at h
  cases callStep_eq_some h with
  | set =>
    change (s.callinfos.set (cid k) ⟨cid k, k⟩).1.get c = s.callinfos.get c
    rw [BeeMap.get_set, if_neg hc]
  | delete =>
    change (s.callinfos.delete (cid k)).get c = s.callinfos.get c
    rw [BeeMap.get_delete, if_neg hc]
  | _ => rfl

/-- A step of a call that is not tidy makes the call return, and its entry stays if it is there. -/
theorem not_gone_of_not_tidy {k : κ} {a : CallAct} (hentry : s.callinfos.get (cid k) ≠ none)
    (htidy : ¬ Tidy cid s (.call k a)) (h : callStep cid s k (s.caller k) a = some s') :
    (∃ o, s'.caller k = .returned o) ∧ ¬ s'.Gone cid k := by
  have hreturned : ∀ o, s' = s.setCaller k (.returned o) → s.dropped ≠ true →
      (∃ o, s'.caller k = .returned o) ∧ ¬ s'.Gone cid k := by
    rintro o rfl hdropped
    refine ⟨⟨o, ?_⟩, ?_⟩
    · rw [State.caller_setCaller, if_pos rfl]
    · rintro (hd | hget)
      · exact hdropped hd
      · exact hentry hget
  generalize s.caller k = pc at h
  cases callStep_eq_some h with
  | publishError err => exact hreturned _ rfl htidy
  | recv hrecv =>
    obtain ⟨hbuf, -⟩ := Classical.not_imp.mp htidy
    rw [(Chan.recv_eq_value hrecv).1] at hbuf
    cases hbuf
  | recvClosed hrecv =>
    obtain ⟨-, hmid⟩ := Classical.not_imp.mp htidy
    exact hreturned _ rfl (fun hd => hmid (.inl hd))
  | _ => exact absurd trivial htidy

variable [DecidableEq δ]

/-- **No leaks.** At the end of every tidy run, the id of a call that has returned is not in the table
any more; and whatever a call does next leaves the entries under other ids as they are. -/
theorem returned_gone (hcid : Function.Injective cid) {as : List (Act κ δ)}
    (hrun : run (step cid) State.init as = some s) (htidy : Along (step cid) (Tidy cid) State.init as) :
    (∀ k o, s.caller k = .returned o → s.Gone cid k) ∧
    ∀ k a s', step cid s (.call k a) = some s' →
      ∀ c, c ≠ cid k → s'.callinfos.get c = s.callinfos.get c := by
  have hinv : Correlated cid s ∧ Tabled cid s :=
    run_invariant (P := fun s => Correlated cid s ∧ Tabled cid s)
      (fun s a s' hs hC hstep => ⟨hs.1.step hstep, hs.2.step hcid hs.1 hC hstep⟩)
      ⟨correlated_init, tabled_init⟩ htidy hrun
  exact ⟨hinv.2.returned, fun k a s' hstep c hc => callStep_get hstep hc⟩

/-- The first call is answered, the second one times out. -/
def tidyRun : List (Act Bool Unit) :=
  [.call true .check, .call true .set, .call true (.publish none), .call false .check,
    .call false .set, .call false (.publish none), .loop .check,
    .loop (.arrive ⟨"a", "", "", []⟩), .loop .get, .loop .delete, .loop .send, .call true .recv,
    .call false .timeout, .call false .close, .call false .delete]

theorem returned_gone_tidyRun :
    ∃ s : State Bool Unit, run (step sampleCid) State.init tidyRun = some s ∧
      s.caller true = .returned (.reply ⟨0, "a", "", "", []⟩) ∧ s.Gone sampleCid true ∧
      s.caller false = .returned .deadline ∧ s.Gone sampleCid false := by
  have hcid : Function.Injective sampleCid := by
    intro k k' h
    revert h
    cases k <;> cases k' <;> decide
  have htidy : Along (step sampleCid) (Tidy sampleCid) (State.init : State Bool Unit) tidyRun :=
    .cons trivial rfl <| .cons trivial rfl <| .cons trivial rfl <| .cons trivial rfl <|
    .cons trivial rfl <| .cons trivial rfl <| .cons trivial rfl <| .cons trivial rfl <|
    .cons trivial rfl <| .cons trivial rfl <| .cons trivial rfl <|
    .cons (fun h => by cases h) rfl <| .cons trivial rfl <| .cons trivial rfl <|
    .cons trivial rfl .nil
  have h := (returned_gone hcid rfl htidy).1
  exact ⟨_, rfl, rfl, h true _ rfl, rfl, h false _ rfl⟩

/-- The publish fails. -/
def unsentRun : List (Act Bool Unit) :=
  [.call true .check, .call true .set, .call true (.publish (some "nats: connection closed"))]

/-- `Done` closes the channel, and the call returns before its entry is deleted. -/
def closedRun : List (Act Bool Unit) :=
  [.call true .check, .call true .set, .call true (.publish none),
    .done () (.items [("a", ⟨"a", true⟩)]), .done () .close, .call true .recv]

theorem not_gone_unsentRun_closedRun :
    (∃ s : State Bool Unit, run (step sampleCid) State.init unsentRun = some s ∧
      s.caller true = .returned (.failed "nats: connection closed") ∧ ¬ s.Gone sampleCid true) ∧
    ∃ s : State Bool Unit, run (step sampleCid) State.init closedRun = some s ∧
      s.caller true = .returned .chanClosed ∧ ¬ s.Gone sampleCid true := by
  refine ⟨⟨_, rfl, rfl, ?_⟩, ⟨_, rfl, rfl, ?_⟩⟩
  · rintro (h | h)
    · cases h
    · cases h
  · rintro (h | h)
    · cases h
    · cases h

end Vmqant.Rpc
