import Vmqant.Common.Counts
import Vmqant.Rpc.NatsServer

/-!
# Handlers and `Done`

`Done` waits for the wait group and then shuts the subscription down. The goroutine of a request enters
the wait group after it was started, and requests are accepted until the shutdown. So a handler can
outlive `Done` in two ways, which `Graceful` rules out: its goroutine is not counted yet when the wait
is over, or its request is dispatched after the wait. Handlers that run in the loop are finished with
it, and `Done` waits for the loop.
-/

namespace Vmqant.Rpc.NatsServer

open Lts

variable {ρ δ : Type} {go : ρ → Bool} {s s' : State ρ δ}

/-! ## The condition and the invariant -/

/-- `Done` has passed its wait. -/
def ClosePc.Passed (pc : ClosePc) : Prop :=
  pc = .waited ∨ pc = .closed true ∨ pc = .closing true ∨ pc = .returned true

/-- When a wait is over, no goroutine is between its start and the wait group; and after a wait no
request for a goroutine is dispatched. -/
def Graceful (go : ρ → Bool) (s : State ρ δ) : Act ρ δ → Prop
  | .closer _ .wait => ∀ r, s.req r ≠ .spawned
  | .loop .dispatch => ∀ r, s.loop = .dispatching r → go r = true → ∀ d, ¬ (s.closer d).Passed
  | _ => True

/-- The invariant of a graceful run. -/
structure Counted (go : ρ → Bool) (s : State ρ δ) : Prop where
  count : Counts (· = ReqPc.running) s.req s.wg
  accepted : ∀ r, s.req r = .accepted ↔ s.loop = .dispatching r
  /-- A handler without a goroutine runs in the loop. -/
  sync : ∀ r, s.req r = .running ∧ go r = false ↔ s.loop = .running r
  spawned : ∀ r, s.req r = .spawned → go r = true
  stopped : s.stopeds = true → s.loop = .stopped
  returned : ∀ d w, s.closer d = .returned w → s.stopeds = true
  passed : ∀ d, (s.closer d).Passed → ∀ r, go r = true → s.req r ≠ .spawned ∧ s.req r ≠ .running

theorem counted_init : Counted go (State.init : State ρ δ) where
  count := Counts.zero_iff.mpr (by simp [State.init])
  accepted r := by simp [State.init]
  sync r := by simp [State.init]
  spawned r h := by simp [State.init] at h
  stopped h := by simp [State.init] at h
  returned d w h := by simp [State.init] at h
  passed d h := by simp [State.init, ClosePc.Passed] at h

/-! ## The steps -/

namespace Counted

/-- The loop moves on with empty hands. -/
theorem setLoop (hs : Counted go s) {l : LoopPc ρ}
    (hdispatching : ∀ r, l = .dispatching r ↔ s.loop = .dispatching r)
    (hrunning : ∀ r, l = .running r ↔ s.loop = .running r)
    (hstop : s.stopeds = true → l = .stopped) : Counted go { s with loop := l } :=
  { hs with
    accepted := fun r => (hs.accepted r).trans (hdispatching r).symm
    sync := fun r => (hs.sync r).trans (hrunning r).symm
    stopped := hstop }

theorem closeStep [DecidableEq δ] (hs : Counted go s) {d : δ} {a : CloseAct}
    (hgraceful : Graceful go s (.closer d a)) (h : closeStep s d (s.closer d) a = some s') :
    Counted go s' := by
  generalize hpc : s.closer d = pc at h
  have hcloser : ∀ pc' d', (s.setCloser d pc').closer d' = if d' = d then pc' else s.closer d' :=
    fun pc' d' => Function.update_apply s.closer d pc' d'
  have hmove : ∀ {pc'}, (∀ w, pc' = .returned w → s.stopeds = true) →
      (pc'.Passed → ∀ r, go r = true → s.req r ≠ .spawned ∧ s.req r ≠ .running) →
      Counted go (s.setCloser d pc') := fun {pc'} hreturned hpassed =>
    { hs with
      returned := fun d' w h' => by
        rw [hcloser] at h'
        split at h'
        · exact hreturned w h'
        · exact hs.returned d' w h'
      passed := fun d' h' => by
        rw [hcloser] at h'
        split at h'
        · exact hpassed h'
        · exact hs.passed d' h' }
  cases closeStep_eq_some h with
  | wait hwg =>
    -- the wait group is empty, and nobody is about to enter it
    have hcount := hs.count
    rw [hwg] at hcount
    have hnone := Counts.zero_iff.mp hcount
    exact hmove (by simp) (fun _ r _ => ⟨hgraceful r, hnone r⟩)
  | close =>
    have hs' : Counted go (s.setCloser d (.closed true)) :=
      hmove (by simp) (fun _ => hs.passed d (by simp [hpc, ClosePc.Passed]))
    exact { hs' with }
  | closeOnly =>
    have hs' : Counted go (s.setCloser d (.closed false)) :=
      hmove (by simp) (by simp [ClosePc.Passed])
    exact { hs' with }
  | setClose w =>
    have hs' : Counted go (s.setCloser d (.closing w)) :=
      hmove (by simp) (fun hw => hs.passed d (by simpa [hpc, ClosePc.Passed] using hw))
    exact { hs' with }
  | ret w hstop =>
    exact hmove (fun _ _ => hstop)
      (fun hw => hs.passed d (by simpa [hpc, ClosePc.Passed] using hw))

theorem unsubStep (hs : Counted go s) {a : UnsubAct} (h : unsubStep s s.unsub a = some s') :
    Counted go s' := by
  generalize s.unsub = pc at h
  cases unsubStep_eq_some h with
  | read hdone => exact { hs with }
  | nothing => exact { hs with }
  | unsubscribe sub => exact { hs with }

variable [DecidableEq ρ]

/-- A request moves on; the loop takes it, keeps it or lets it go. -/
theorem setReq (hs : Counted go s) {r : ρ} {pc : ReqPc} {l : LoopPc ρ} {n : ℕ}
    (hcount : Counts (· = ReqPc.running) (Function.update s.req r pc) n)
    (hl : ∀ r', r' ≠ r →
      (l = .dispatching r' ↔ s.loop = .dispatching r') ∧ (l = .running r' ↔ s.loop = .running r'))
    (haccepted : pc = .accepted ↔ l = .dispatching r)
    (hsync : pc = .running ∧ go r = false ↔ l = .running r)
    (hspawned : pc = .spawned → go r = true)
    (hpassed : ∀ d, (s.closer d).Passed → go r = true → pc ≠ .spawned ∧ pc ≠ .running)
    (hstop : s.stopeds = true → l = .stopped) :
    Counted go { s.setReq r pc with loop := l, wg := n } := by
  have hreq : ∀ r', (s.setReq r pc).req r' = if r' = r then pc else s.req r' := fun r' =>
    Function.update_apply s.req r pc r'
  exact
    { count := hcount
      accepted := fun r' => by
        rw [hreq]
        split
        · next hr =>
          rw [hr]
          exact haccepted
        · next hr => exact (hs.accepted r').trans (hl r' hr).1.symm
      sync := fun r' => by
        rw [hreq]
        split
        · next hr =>
          rw [hr]
          exact hsync
        · next hr => exact (hs.sync r').trans (hl r' hr).2.symm
      spawned := fun r' h => by
        rw [hreq] at h
        split at h
        · next hr =>
          rw [hr]
          exact hspawned h
        · exact hs.spawned r' h
      stopped := hstop
      returned := hs.returned
      passed := fun d h r' hgo => by
        rw [hreq]
        split
        · next hr =>
          rw [hr] at hgo
          exact hpassed d h hgo
        · exact hs.passed d h r' hgo }

theorem loopStep (hs : Counted go s) {a : LoopAct ρ} (hgraceful : Graceful go s (.loop a))
    (h : loopStep go s s.loop a = some s') : Counted go s' := by
  generalize hpc : s.loop = pc at h
  have hrun : ∀ {l : LoopPc ρ}, pc ≠ .stopped → s.stopeds = true → l = .stopped :=
    fun hne hstop => absurd (hpc.symm.trans (hs.stopped hstop)) hne
  cases loopStep_eq_some h with
  | subscribe =>
    have hs' : Counted go { s with loop := .head } :=
      hs.setLoop (by simp [hpc]) (by simp [hpc]) (hrun (by simp))
    exact { hs' with }
  | noSubscribe => exact hs.setLoop (by simp [hpc]) (by simp [hpc]) (hrun (by simp))
  | leave hclose => exact hs.setLoop (by simp [hpc]) (by simp [hpc]) (hrun (by simp))
  | read hclose => exact hs.setLoop (by simp [hpc]) (by simp [hpc]) (hrun (by simp))
  | noMsg => exact hs.setLoop (by simp [hpc]) (by simp [hpc]) (hrun (by simp))
  | skip hvalid => exact hs.setLoop (by simp [hpc]) (by simp [hpc]) (hrun (by simp))
  | receive r hvalid hidle =>
    -- the loop takes the request
    exact hs.setReq (hs.count.stay (by simp [hidle])) (by simp [hpc, eq_comm]) (by simp)
      (by simp) (by simp) (by simp) (hrun (by simp))
  | retry hvalid => exact hs.setLoop (by simp [hpc]) (by simp [hpc]) (hrun (by simp))
  | invalid hvalid => exact hs.setLoop (by simp [hpc]) (by simp [hpc]) (hrun (by simp))
  | resubscribe =>
    have hs' : Counted go { s with loop := .head } :=
      hs.setLoop (by simp [hpc]) (by simp [hpc]) (hrun (by simp))
    exact { hs' with }
  | noResubscribe =>
    have hs' : Counted go { s with loop := .head } :=
      hs.setLoop (by simp [hpc]) (by simp [hpc]) (hrun (by simp))
    exact { hs' with }
  | spawn r hgo =>
    have haccepted : s.req r = .accepted := (hs.accepted r).mpr hpc
    exact hs.setReq (hs.count.stay (by simp [haccepted])) (by simp [hpc, eq_comm]) (by simp)
      (by simp) (fun _ => hgo) (fun d hd => absurd hd (hgraceful r hpc hgo d)) (hrun (by simp))
  | run r hgo =>
    have haccepted : s.req r = .accepted := (hs.accepted r).mpr hpc
    exact hs.setReq (hs.count.enter (by simp [haccepted]) rfl) (by simp [hpc, eq_comm]) (by simp)
      (by simp [hgo]) (by simp) (by simp [hgo]) (hrun (by simp))
  | finish r =>
    have hrunning := ((hs.sync r).mpr hpc).1
    exact hs.setReq (hs.count.leave hrunning (by simp)) (by simp [hpc, eq_comm]) (by simp)
      (by simp) (by simp) (by simp) (hrun (by simp))
  | panic r =>
    have hrunning := ((hs.sync r).mpr hpc).1
    exact hs.setReq (hs.count.leave hrunning (by simp)) (by simp [hpc, eq_comm]) (by simp)
      (by simp) (by simp) (by simp) (hrun (by simp))
  | stop =>
    have hs' : Counted go { s with loop := .stopped } :=
      hs.setLoop (by simp [hpc]) (by simp [hpc]) (hrun (by simp))
    exact { hs' with
      stopped := fun _ => rfl
      returned := fun _ _ _ => rfl }

theorem reqStep (hs : Counted go s) {r : ρ} {a : ReqAct}
    (h : reqStep go s r (s.req r) a = some s') : Counted go s' := by
  generalize hpc : s.req r = pc at h
  -- the loop has another request in its hands
  have hloop : pc ≠ .accepted → s.loop ≠ .dispatching r := fun hne hl =>
    hne (hpc.symm.trans ((hs.accepted r).mpr hl))
  have hloop' : go r = true → s.loop ≠ .running r := fun hgo hl => by
    rw [((hs.sync r).mpr hl).2] at hgo
    cases hgo
  cases reqStep_eq_some h with
  | begin =>
    have hgo := hs.spawned r hpc
    have hdispatching := hloop (by simp)
    exact hs.setReq (l := s.loop) (hs.count.enter (by simp [hpc]) rfl) (by simp)
      (by simp [hdispatching]) (by simp [hgo, hloop']) (by simp)
      (fun d hd hgo => absurd hpc (hs.passed d hd r hgo).1) hs.stopped
  | finish hgo =>
    have hdispatching := hloop (by simp)
    exact hs.setReq (l := s.loop) (hs.count.leave hpc (by simp)) (by simp)
      (by simp [hdispatching]) (by simp [hloop' hgo]) (by simp) (by simp) hs.stopped

theorem step [DecidableEq δ] (hs : Counted go s) {a : Act ρ δ} (hgraceful : Graceful go s a)
    (h : step go s a = some s') : Counted go s' := by
  cases a with
  | loop a => exact hs.loopStep hgraceful h
  | req r a => exact hs.reqStep h
  | unsub a => exact hs.unsubStep h
  | closer d a => exact hs.closeStep hgraceful h
  | lose sub =>
    obtain rfl := Option.some.inj h
    exact { hs with }

end Counted

/-! ## When `Done` returns -/

variable [DecidableEq ρ] [DecidableEq δ]

/-- **`Done` is graceful** in a run in which no goroutine is left out of a wait and none is dispatched
after it: when `Done` has returned, no handler is executing, and no accepted request is still to be
started. -/
theorem done_graceful {as : List (Act ρ δ)} (hrun : run (step go) State.init as = some s)
    (hgraceful : Along (step go) (Graceful go) State.init as) {d : δ}
    (hd : s.closer d = .returned true) (r : ρ) : s.req r = .idle ∨ s.req r = .finished := by
  have hs : Counted go s :=
    run_invariant (P := Counted go) (fun _ _ _ hs hC hstep => hs.step hC hstep) counted_init
      hgraceful hrun
  have hloop := hs.stopped (hs.returned d true hd)
  have hpassed := hs.passed d (by simp [hd, ClosePc.Passed]) r
  have haccepted := hs.accepted r
  have hsync := hs.sync r
  cases hr : s.req r with
  | idle => exact .inl rfl
  | finished => exact .inr rfl
  | accepted => exact absurd (haccepted.mp hr) (by simp [hloop])
  | spawned => exact absurd hr (hpassed (hs.spawned r hr)).1
  | running =>
    cases hgo : go r with
    | true => exact absurd hr (hpassed hgo).2
    | false => exact absurd (hsync.mp ⟨hr, hgo⟩) (by simp [hloop])

/-- A goroutine is through with its request when `Done` is called. -/
def gracefulRun : List (Act Unit Unit) :=
  [.loop (.subscribe true), .loop .check, .loop (.receive ()), .loop .dispatch, .req () .begin,
    .req () .finish, .closer () .wait, .closer () .close, .closer () .setClose, .loop .check,
    .loop .stop, .closer () .ret]

theorem done_graceful_gracefulRun :
    ∃ s : State Unit Unit, run (step fun _ => true) State.init gracefulRun = some s ∧
      s.closer () = .returned true ∧ (s.req () = .idle ∨ s.req () = .finished) := by
  have hidle : ∀ d : Unit, ¬ ((State.init : State Unit Unit).closer d).Passed := by
    simp [State.init, ClosePc.Passed]
  have hgraceful : Along (step fun _ => true) (Graceful fun _ => true)
      (State.init : State Unit Unit) gracefulRun :=
    .cons trivial rfl <| .cons trivial rfl <| .cons trivial rfl <|
    .cons (fun _ _ _ => hidle) rfl <| .cons trivial rfl <| .cons trivial rfl <|
    .cons (fun _ h => by cases h) rfl <| .cons trivial rfl <| .cons trivial rfl <|
    .cons trivial rfl <| .cons trivial rfl <| .cons trivial rfl .nil
  refine ⟨_, rfl, rfl, ?_⟩
  exact done_graceful rfl hgraceful (d := ()) rfl ()

/-- The goroutine has not reached the wait group when `Done` waits for it. -/
def uncountedRun : List (Act Unit Unit) :=
  [.loop (.subscribe true), .loop .check, .loop (.receive ()), .loop .dispatch, .closer () .wait,
    .closer () .close, .closer () .setClose, .loop .check, .loop .stop, .closer () .ret]

/-- The request is dispatched between the wait and the shutdown. -/
def lateRun : List (Act Unit Unit) :=
  [.loop (.subscribe true), .loop .check, .closer () .wait, .loop (.receive ()), .loop .dispatch,
    .req () .begin, .closer () .close, .closer () .setClose, .loop .check, .loop .stop,
    .closer () .ret]

theorem not_graceful_uncountedRun_lateRun :
    (∃ s s' : State Unit Unit, run (step fun _ => true) State.init uncountedRun = some s ∧
      s.closer () = .returned true ∧ step (fun _ => true) s (.req () .begin) = some s' ∧
      s'.req () = .running) ∧
    ∃ s : State Unit Unit, run (step fun _ => true) State.init lateRun = some s ∧
      s.closer () = .returned true ∧ s.req () = .running :=
  ⟨⟨_, _, rfl, rfl, rfl, rfl⟩, ⟨_, rfl, rfl, rfl⟩⟩

end Vmqant.Rpc.NatsServer
