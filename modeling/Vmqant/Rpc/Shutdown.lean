import Vmqant.Rpc.NatsServer

/-!
# No subscription outlives the shutdown

The loop subscribes again whenever it finds its subscription invalid, and so after the unsubscribe of a
shutdown, too; and it may leave before the unsubscribe. `Quiet` rules these two orders out, and then
nothing is subscribed once `Shutdown` has returned.
-/

namespace Vmqant.Rpc.NatsServer

open Lts

variable {ρ δ : Type} {go : ρ → Bool} {s s' : State ρ δ}

/-! ## The condition and the invariant -/

/-- There is no active subscription. -/
def State.Silent (s : State ρ δ) : Prop := ∀ sub, s.active sub = false

/-- The loop does not subscribe once the unsubscribing goroutine has read `s.subs`, and `Shutdown` does
not return before that goroutine is finished. -/
def Quiet (s : State ρ δ) : Act ρ δ → Prop
  | .loop (.subscribe true) => s.unsub = .off ∨ s.unsub = .waiting
  | .closer _ .ret => s.unsub = .off ∨ s.unsub = .finished
  | _ => True

/-- The invariant of a quiet run. -/
structure Subscribed (s : State ρ δ) : Prop where
  current : ∀ sub, s.active sub = true → s.subs = some sub
  start : s.loop = .start → s.unsub = .off
  off : s.unsub = .off → s.Silent ∧ (s.loop = .start ∨ s.loop = .leaving ∨ s.loop = .stopped)
  invalid : s.loop = .invalid → s.Silent
  read : ∀ sub, s.unsub = .read sub → ∀ sub', s.active sub' = true → sub = some sub'
  finished : s.unsub = .finished → s.Silent
  stopped : s.stopeds = true → s.loop = .stopped
  returned : ∀ d w, s.closer d = .returned w → s.stopeds = true ∧ s.Silent

theorem subscribed_init : Subscribed (State.init : State ρ δ) where
  current sub h := by simp [State.init] at h
  start _ := rfl
  off _ := ⟨fun _ => rfl, .inl rfl⟩
  invalid h := by simp [State.init] at h
  read sub h := by simp [State.init] at h
  finished h := by simp [State.init] at h
  stopped h := by simp [State.init] at h
  returned d w h := by simp [State.init] at h

/-! ## The steps -/

namespace Subscribed

/-- A running loop has not been left. -/
theorem not_stopeds (hs : Subscribed s) (h : s.loop ≠ .stopped) : s.stopeds = false := by
  cases hstop : s.stopeds with
  | false => rfl
  | true => exact absurd (hs.stopped hstop) h

/-- Where the current subscription is not valid, there is no active one. -/
theorem silent_of_not_valid (hs : Subscribed s) (h : s.valid ≠ true) : s.Silent := by
  intro sub
  cases hactive : s.active sub with
  | false => rfl
  | true =>
    have hsubs := hs.current sub hactive
    rw [State.valid, hsubs] at h
    exact absurd hactive h

/-- The loop moves on without subscribing. -/
theorem setLoop (hs : Subscribed s) {l : LoopPc ρ} (hfrom : s.loop ≠ .stopped) (hl : l ≠ .start)
    (hoff : s.unsub = .off → l = .leaving) (hinvalid : l = .invalid → s.Silent) :
    Subscribed { s with loop := l } :=
  { hs with
    start := fun h => absurd h hl
    off := fun h => ⟨(hs.off h).1, .inr (.inl (hoff h))⟩
    invalid := hinvalid
    stopped := fun h => by
      rw [hs.not_stopeds hfrom] at h
      cases h }

/-- A subscription is made when there is no other. -/
theorem subscribe (hs : Subscribed s) (hfrom : s.loop = .start ∨ s.loop = .invalid) :
    Subscribed { s.subscribe with loop := .head, unsub := .waiting } := by
  have hsilent : s.Silent := by
    rcases hfrom with h | h
    · exact (hs.off (hs.start h)).1
    · exact hs.invalid h
  have hstop : s.stopeds = false := hs.not_stopeds (by rcases hfrom with h | h <;> simp [h])
  exact
    { current := fun sub h => by
        by_cases hsub : sub = s.subscriptions
        · rw [hsub]
          rfl
        · change Function.update s.active s.subscriptions true sub = true at h
          rw [Function.update_of_ne hsub, hsilent sub] at h
          cases h
      start := by simp
      off := by simp
      invalid := by simp
      read := by simp
      finished := by simp
      stopped := fun h => by
        change s.stopeds = true at h
        rw [hstop] at h
        cases h
      returned := fun d w h => by
        -- nobody has returned from `Shutdown` while the loop was running
        have hd := (hs.returned d w h).1
        rw [hstop] at hd
        cases hd }

/-- A subscription goes. -/
theorem deactivate (hs : Subscribed s) (sub : ℕ) : Subscribed (s.deactivate sub) := by
  have hactive : ∀ sub', (s.deactivate sub).active sub' = true → s.active sub' = true := by
    intro sub' h
    change Function.update s.active sub false sub' = true at h
    rw [Function.update_apply] at h
    split at h
    · cases h
    · exact h
  have hsilent : s.Silent → (s.deactivate sub).Silent := by
    intro h sub'
    rw [← Bool.not_eq_true]
    intro hactive'
    have := hactive sub' hactive'
    rw [h sub'] at this
    cases this
  exact
    { current := fun sub' h => hs.current sub' (hactive sub' h)
      start := hs.start
      off := fun h => ⟨hsilent (hs.off h).1, (hs.off h).2⟩
      invalid := fun h => hsilent (hs.invalid h)
      read := fun sub' h sub'' h' => hs.read sub' h sub'' (hactive sub'' h')
      finished := fun h => hsilent (hs.finished h)
      stopped := hs.stopped
      returned := fun d w h => ⟨(hs.returned d w h).1, hsilent (hs.returned d w h).2⟩ }

theorem unsubStep (hs : Subscribed s) {a : UnsubAct} (h : unsubStep s s.unsub a = some s') :
    Subscribed s' := by
  generalize hpc : s.unsub = pc at h
  have hrunning : pc ≠ .off → s.loop ≠ .start := by
    intro hne hstart
    exact hne (hpc.symm.trans (hs.start hstart))
  cases unsubStep_eq_some h with
  | read hdone =>
    exact
      { hs with
        start := fun h => absurd h (hrunning (by simp))
        off := by simp
        read := fun sub h sub' hactive => by
          obtain rfl : s.subs = sub := by simpa using h
          exact hs.current sub' hactive
        finished := by simp }
  | nothing =>
    -- there was no subscription to give up
    have hsilent : s.Silent := by
      intro sub
      rw [← Bool.not_eq_true]
      intro hactive
      cases hs.read none hpc sub hactive
    exact
      { hs with
        start := fun h => absurd h (hrunning (by simp))
        off := by simp
        read := by simp
        finished := fun _ => hsilent }
  | unsubscribe sub =>
    have hsilent : (s.deactivate sub).Silent := by
      intro sub'
      change Function.update s.active sub false sub' = false
      rw [Function.update_apply]
      split
      · rfl
      · next hne =>
        rw [← Bool.not_eq_true]
        intro hactive
        exact hne (Option.some.inj (hs.read (some sub) hpc sub' hactive)).symm
    exact
      { hs.deactivate sub with
        start := fun h => absurd h (hrunning (by simp))
        off := by simp
        read := by simp
        finished := fun _ => hsilent }

theorem closeStep [DecidableEq δ] (hs : Subscribed s) {d : δ} {a : CloseAct}
    (hquiet : Quiet s (.closer d a)) (h : closeStep s d (s.closer d) a = some s') :
    Subscribed s' := by
  generalize s.closer d = pc at h
  have hmove : ∀ {pc'}, (∀ w, pc' ≠ .returned w) → Subscribed (s.setCloser d pc') := fun hpc' =>
    { hs with
      returned := fun d' w h' => by
        change Function.update s.closer d _ d' = .returned w at h'
        rw [Function.update_apply] at h'
        split at h'
        · exact absurd h' (hpc' w)
        · exact hs.returned d' w h' }
  cases closeStep_eq_some h with
  | wait hwg => exact hmove (by simp)
  | close =>
    have hs' : Subscribed (s.setCloser d (.closed true)) := hmove (by simp)
    exact { hs' with }
  | closeOnly =>
    have hs' : Subscribed (s.setCloser d (.closed false)) := hmove (by simp)
    exact { hs' with }
  | setClose w =>
    have hs' : Subscribed (s.setCloser d (.closing w)) := hmove (by simp)
    exact { hs' with }
  | ret w hstop =>
    have hsilent : s.Silent := by
      rcases hquiet with hoff | hfinished
      · exact (hs.off hoff).1
      · exact hs.finished hfinished
    exact { hs with returned := fun _ _ _ => ⟨hstop, hsilent⟩ }

variable [DecidableEq ρ]

theorem loopStep (hs : Subscribed s) {a : LoopAct ρ} (hquiet : Quiet s (.loop a))
    (h : loopStep go s s.loop a = some s') : Subscribed s' := by
  generalize hpc : s.loop = pc at h
  -- inside the loop the unsubscribing goroutine is there
  have hon : pc ≠ .start ∧ pc ≠ .leaving ∧ pc ≠ .stopped → s.unsub ≠ .off := by
    rintro ⟨hstart, hleaving, hstopped⟩ hoff
    rcases (hs.off hoff).2 with h | h | h
    · exact hstart (hpc.symm.trans h)
    · exact hleaving (hpc.symm.trans h)
    · exact hstopped (hpc.symm.trans h)
  have hmove : ∀ {l}, pc ≠ .start ∧ pc ≠ .leaving ∧ pc ≠ .stopped → l ≠ .start ∧ l ≠ .invalid →
      Subscribed { s with loop := l } := fun hin hl =>
    hs.setLoop (hpc ▸ hin.2.2) hl.1 (fun h => absurd h (hon hin))
      (fun h => absurd h hl.2)
  cases loopStep_eq_some h with
  | subscribe => exact hs.subscribe (.inl hpc)
  | noSubscribe => exact hs.setLoop (by simp [hpc]) (by simp) (fun _ => rfl) (by simp)
  | leave hclose => exact hmove (by simp) (by simp)
  | read hclose => exact hmove (by simp) (by simp)
  | noMsg => exact hmove (by simp) (by simp)
  | skip hvalid => exact hmove (by simp) (by simp)
  | receive r hvalid hidle =>
    have hs' := hmove (l := .dispatching r) (by simp) (by simp)
    exact { hs' with }
  | retry hvalid => exact hmove (by simp) (by simp)
  | invalid hvalid =>
    exact hs.setLoop (by simp [hpc]) (by simp)
      (fun h => absurd h (hon (by simp)))
      (fun _ => hs.silent_of_not_valid hvalid)
  | resubscribe =>
    -- a new subscription, before `s.subs` is read for the unsubscribe
    have hwaiting : s.unsub = .waiting :=
      hquiet.resolve_left (hon (by simp))
    have hs' := hs.subscribe (.inr hpc)
    rw [← hwaiting] at hs'
    exact hs'
  | noResubscribe =>
    have hsilent := hs.invalid hpc
    have hs' := hmove (l := .head) (by simp) (by simp)
    exact
      { hs' with
        current := fun sub hactive => by
          change s.active sub = true at hactive
          rw [hsilent sub] at hactive
          cases hactive }
  | spawn r hgo =>
    have hs' := hmove (l := .head) (by simp) (by simp)
    exact { hs' with }
  | run r hgo =>
    have hs' := hmove (l := .running r) (by simp) (by simp)
    exact { hs' with }
  | finish r =>
    have hs' := hmove (l := .head) (by simp) (by simp)
    exact { hs' with }
  | panic r =>
    have hs' := hmove (l := .leaving) (by simp) (by simp)
    exact { hs' with }
  | stop =>
    exact
      { hs with
        start := by simp
        off := fun hoff => ⟨(hs.off hoff).1, .inr (.inr rfl)⟩
        invalid := by simp
        stopped := fun _ => rfl
        returned := fun d w h' => ⟨rfl, (hs.returned d w h').2⟩ }

theorem reqStep (hs : Subscribed s) {r : ρ} {a : ReqAct}
    (h : reqStep go s r (s.req r) a = some s') : Subscribed s' := by
  generalize s.req r = pc at h
  cases reqStep_eq_some h with
  | begin => exact { hs with }
  | finish hgo => exact { hs with }

theorem step [DecidableEq δ] (hs : Subscribed s) {a : Act ρ δ} (hquiet : Quiet s a)
    (h : step go s a = some s') : Subscribed s' := by
  cases a with
  | loop a => exact hs.loopStep hquiet h
  | req r a => exact hs.reqStep h
  | unsub a => exact hs.unsubStep h
  | closer d a => exact hs.closeStep hquiet h
  | lose sub =>
    obtain rfl := Option.some.inj h
    exact hs.deactivate sub

end Subscribed

/-! ## After the shutdown -/

variable [DecidableEq ρ] [DecidableEq δ]

/-- **No subscription outlives `Shutdown`** in a run in which the loop does not subscribe after `s.subs`
was read for the unsubscribe, and `Shutdown` does not overtake the unsubscribe. -/
theorem shutdown_silent {as : List (Act ρ δ)} (hrun : run (step go) State.init as = some s)
    (hquiet : Along (step go) Quiet State.init as) {d : δ} {w : Bool}
    (hd : s.closer d = .returned w) : s.Silent :=
  ((run_invariant (P := Subscribed) (fun _ _ _ hs hC hstep => hs.step hC hstep) subscribed_init
    hquiet hrun).returned d w hd).2

/-- A message arrives during the shutdown, so the loop leaves at its next test. -/
def quietRun : List (Act Unit Unit) :=
  [.loop (.subscribe true), .loop .check, .closer () .wait, .closer () .close,
    .closer () .setClose, .loop .skip, .unsub .read, .unsub .unsubscribe, .loop .check, .loop .stop,
    .closer () .ret]

theorem shutdown_silent_quietRun :
    ∃ s : State Unit Unit, run (step fun _ => true) State.init quietRun = some s ∧
      s.closer () = .returned true ∧ s.Silent := by
  have hquiet : Along (step fun _ => true) Quiet (State.init : State Unit Unit) quietRun :=
    .cons (.inl rfl) rfl <| .cons trivial rfl <| .cons trivial rfl <| .cons trivial rfl <|
    .cons trivial rfl <| .cons trivial rfl <| .cons trivial rfl <| .cons trivial rfl <|
    .cons trivial rfl <| .cons trivial rfl <| .cons (.inr rfl) rfl .nil
  refine ⟨_, rfl, rfl, ?_⟩
  exact shutdown_silent rfl hquiet (d := ()) (w := true) rfl

/-- The server is idle: `NextMsg` fails with the unsubscribe, and the loop subscribes again. -/
def resubscribeRun : List (Act Unit Unit) :=
  [.loop (.subscribe true), .loop .check, .closer () .close, .closer () .setClose, .unsub .read,
    .unsub .unsubscribe, .loop .noMsg, .loop .check, .loop (.subscribe true), .loop .check,
    .loop .stop, .closer () .ret]

/-- The loop leaves before the unsubscribe. -/
def overtakeRun : List (Act Unit Unit) :=
  [.loop (.subscribe true), .closer () .close, .closer () .setClose, .loop .check, .loop .stop,
    .closer () .ret]

theorem not_silent_resubscribeRun_overtakeRun :
    (∃ s : State Unit Unit, run (step fun _ => true) State.init resubscribeRun = some s ∧
      s.closer () = .returned false ∧ ¬ s.Silent) ∧
    ∃ s : State Unit Unit, run (step fun _ => true) State.init overtakeRun = some s ∧
      s.closer () = .returned false ∧ ¬ s.Silent := by
  refine ⟨⟨_, rfl, rfl, fun h => ?_⟩, ⟨_, rfl, rfl, fun h => ?_⟩⟩
  · cases h 1
  · cases h 0

end Vmqant.Rpc.NatsServer
