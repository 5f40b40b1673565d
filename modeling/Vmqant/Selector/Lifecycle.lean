import Vmqant.Common.Lts

/-!
# The goroutines of the cache

Reference: `selector/cache/cache.go`, lines 33-40, 83-91, 263-336 and 389-402.

The first `get` of a service spawns `run`, which makes a watcher and loops over its results in `watch`; when
that ends it makes the next one. Each watcher has a goroutine that stops it when `exit` is closed or when it
gets the value of `reload`, which each `Init` sends from a goroutine of its own. `Close` forgets what is
watched, and then closes `exit`; its calls come one after another. A watcher that is stopped makes `Next`
fail, but `Next` may fail without that.
-/

namespace Vmqant.Selector

open Lts

namespace Lifecycle

/-- Where a goroutine of `run` is; `w` is its watcher. -/
inductive RunPc where
  /-- At the top of the loop. -/
  | check
  /-- In `Registry.Watch`. -/
  | watch
  /-- `Watch` has failed. -/
  | failed
  | sleep
  /-- In the loop of `watch`. -/
  | next (w : ℕ)
  /-- Before the deferred `w.Stop()`. -/
  | stopping (w : ℕ)
  /-- `watch` has returned its error. -/
  | returned
  | ended
deriving DecidableEq

structure Runner where
  service : String
  pc : RunPc

/-- Where the goroutine of a watcher is. -/
inductive ManagerPc where
  | waiting
  | stopping
  | ended
deriving DecidableEq

/-- The goroutine is in `watch` with the watcher. -/
def Runner.Holds (r : Runner) (w : ℕ) : Prop := r.pc = .next w ∨ r.pc = .stopping w

structure Watcher where
  stopped : Bool
  manager : ManagerPc

/-- Where a goroutine of `Init` is. -/
inductive InitPc where
  | check
  | sending
  | ended
deriving DecidableEq

structure State where
  watched : String → Bool
  /-- The channel `exit` is closed. -/
  exit : Bool
  /-- The channel `reload` has a value; it has room for one. -/
  reload : Bool
  runners : List Runner
  watchers : List Watcher
  inits : List InitPc
  /-- A call of `Close` has released the lock, before its `select`. -/
  closing : Bool

inductive RunAct where
  /-- The step that the goroutine makes by itself. -/
  | next
  /-- `Watch` returns a watcher. -/
  | watched
  /-- `Watch` fails. -/
  | refused
  /-- `Next` returns a result, which `update` takes. -/
  | result
  /-- `Next` fails. -/
  | error

inductive Act where
  | get (service : String)
  | init
  | close
  | run (i : ℕ) (a : RunAct)
  /-- The goroutine of the watcher `w`; `reload` is the case that its `select` takes. -/
  | manager (w : ℕ) (reload : Bool)
  | initGo (i : ℕ)

namespace State

def start : State where
  watched := fun _ => false
  exit := false
  reload := false
  runners := []
  watchers := []
  inits := []
  closing := false

def setRun (s : State) (i : ℕ) (r : Runner) (pc : RunPc) : State :=
  { s with runners := s.runners.set i { r with pc } }

/-- `w.Stop()`. -/
def stop (s : State) (w : ℕ) : State :=
  { s with watchers := s.watchers.modify w fun x => { x with stopped := true } }

def setManager (s : State) (w : ℕ) (pc : ManagerPc) : State :=
  { s with watchers := s.watchers.modify w fun x => { x with manager := pc } }

/-- `run`, with `watch`. -/
def runStep (s : State) (i : ℕ) (r : Runner) : RunAct → Option State
  | .next =>
    match r.pc with
    | .check => some (s.setRun i r (if s.exit then .ended else .watch))
    | .failed => some (s.setRun i r (if s.exit then .ended else .sleep))
    | .sleep => some (s.setRun i r .check)
    | .stopping w => some ((s.stop w).setRun i r .returned)
    | .returned => some (s.setRun i r (if s.exit then .ended else .check))
    | .watch | .next _ | .ended => none
  | .watched =>
    match r.pc with
    | .watch =>
      some { s.setRun i r (.next s.watchers.length) with watchers := s.watchers ++ [⟨false, .waiting⟩] }
    | _ => none
  | .refused =>
    match r.pc with
    | .watch => some (s.setRun i r .failed)
    | _ => none
  | .result =>
    match r.pc with
    | .next _ => some s
    | _ => none
  | .error =>
    match r.pc with
    | .next w => some (s.setRun i r (.stopping w))
    | _ => none

def managerStep (s : State) (w : ℕ) (reload : Bool) : ManagerPc → Option State
  | .waiting =>
    if reload then if s.reload then some { s.setManager w .stopping with reload := false } else none
    else if s.exit then some (s.setManager w .stopping) else none
  | .stopping => some ((s.stop w).setManager w .ended)
  | .ended => none

def initStep (s : State) (i : ℕ) : InitPc → Option State
  | .check => some { s with inits := s.inits.set i (if s.exit then .ended else .sending) }
  | .sending => if s.reload then none else some { s with inits := s.inits.set i .ended, reload := true }
  | .ended => none

def step (s : State) : Act → Option State
  | .get service =>
    if s.watched service then some s
    else
      some
        { s with
          watched := Function.update s.watched service true
          runners := s.runners ++ [⟨service, .check⟩] }
  | .init => some { s with inits := s.inits ++ [.check] }
  | .close =>
    if s.closing then some { s with exit := true, closing := false }
    else some { s with watched := fun _ => false, closing := true }
  | .run i a => s.runners[i]?.bind fun r => s.runStep i r a
  | .manager w reload => s.watchers[w]?.bind fun x => s.managerStep w reload x.manager
  | .initGo i => s.inits[i]?.bind fun pc => s.initStep i pc

/-! ## What a step can do -/

/-- The steps of `run` that concern nothing but the goroutine. -/
inductive Moves (exit : Bool) : RunPc → RunAct → RunPc → Prop where
  | check : Moves exit .check .next (if exit then .ended else .watch)
  | failed : Moves exit .failed .next (if exit then .ended else .sleep)
  | sleep : Moves exit .sleep .next .check
  | returned : Moves exit .returned .next (if exit then .ended else .check)
  | refused : Moves exit .watch .refused .failed
  | error (w : ℕ) : Moves exit (.next w) .error (.stopping w)

inductive Step (s : State) : Act → State → Prop where
  | getWatched {service : String} (h : s.watched service = true) : Step s (.get service) s
  | getNew {service : String} (h : s.watched service = false) :
    Step s (.get service)
      { s with
        watched := Function.update s.watched service true
        runners := s.runners ++ [⟨service, .check⟩] }
  | init : Step s .init { s with inits := s.inits ++ [.check] }
  | closeLock (h : s.closing = false) : Step s .close { s with watched := fun _ => false, closing := true }
  | closeExit (h : s.closing = true) : Step s .close { s with exit := true, closing := false }
  | move {i : ℕ} {r : Runner} {a : RunAct} {pc : RunPc} (hi : s.runners[i]? = some r)
    (hmoves : Moves s.exit r.pc a pc) : Step s (.run i a) (s.setRun i r pc)
  | watched {i : ℕ} {r : Runner} (hi : s.runners[i]? = some r) (hpc : r.pc = .watch) :
    Step s (.run i .watched)
      { s.setRun i r (.next s.watchers.length) with watchers := s.watchers ++ [⟨false, .waiting⟩] }
  | result {i w : ℕ} {r : Runner} (hi : s.runners[i]? = some r) (hpc : r.pc = .next w) : Step s (.run i .result) s
  | stop {i w : ℕ} {r : Runner} (hi : s.runners[i]? = some r) (hpc : r.pc = .stopping w) :
    Step s (.run i .next) ((s.stop w).setRun i r .returned)
  | managerReload {w : ℕ} {x : Watcher} (hw : s.watchers[w]? = some x) (hpc : x.manager = .waiting)
    (h : s.reload = true) : Step s (.manager w true) { s.setManager w .stopping with reload := false }
  | managerExit {w : ℕ} {x : Watcher} (hw : s.watchers[w]? = some x) (hpc : x.manager = .waiting)
    (h : s.exit = true) : Step s (.manager w false) (s.setManager w .stopping)
  | managerStop {w : ℕ} {x : Watcher} (reload : Bool) (hw : s.watchers[w]? = some x) (hpc : x.manager = .stopping) :
    Step s (.manager w reload) ((s.stop w).setManager w .ended)
  | initCheck {i : ℕ} (hi : s.inits[i]? = some .check) :
    Step s (.initGo i) { s with inits := s.inits.set i (if s.exit then .ended else .sending) }
  | initSend {i : ℕ} (hi : s.inits[i]? = some .sending) (h : s.reload = false) :
    Step s (.initGo i) { s with inits := s.inits.set i .ended, reload := true }

variable {s s' : State} {a : Act}

theorem runStep_eq_some {i : ℕ} {r : Runner} {a : RunAct} (hi : s.runners[i]? = some r)
    (h : s.runStep i r a = some s') : Step s (.run i a) s' := by
  unfold runStep at h
  cases a with
  | next =>
    dsimp only at h
    split at h
    · next hpc =>
      obtain rfl := Option.some.inj h
      exact .move hi (hpc ▸ .check)
    · next hpc =>
      obtain rfl := Option.some.inj h
      exact .move hi (hpc ▸ .failed)
    · next hpc =>
      obtain rfl := Option.some.inj h
      exact .move hi (hpc ▸ .sleep)
    · next hpc =>
      obtain rfl := Option.some.inj h
      exact .stop hi hpc
    · next hpc =>
      obtain rfl := Option.some.inj h
      exact .move hi (hpc ▸ .returned)
    · cases h
    · cases h
    · cases h
  | watched =>
    dsimp only at h
    split at h
    · next hpc =>
      obtain rfl := Option.some.inj h
      exact .watched hi hpc
    · cases h
  | refused =>
    dsimp only at h
    split at h
    · next hpc =>
      obtain rfl := Option.some.inj h
      exact .move hi (hpc ▸ .refused)
    · cases h
  | result =>
    dsimp only at h
    split at h
    · next hpc =>
      obtain rfl := Option.some.inj h
      exact .result hi hpc
    · cases h
  | error =>
    dsimp only at h
    split at h
    · next hpc =>
      obtain rfl := Option.some.inj h
      exact .move hi (hpc ▸ .error _)
    · cases h

theorem managerStep_eq_some {w : ℕ} {reload : Bool} {x : Watcher} (hw : s.watchers[w]? = some x)
    (h : s.managerStep w reload x.manager = some s') : Step s (.manager w reload) s' := by
  unfold managerStep at h
  split at h
  · next hpc =>
    split at h
    · next hcase =>
      split at h
      · next hreload =>
        obtain rfl := Option.some.inj h
        rw [hcase]
        exact .managerReload hw hpc hreload
      · cases h
    · next hcase =>
      split at h
      · next hexit =>
        obtain rfl := Option.some.inj h
        rw [Bool.eq_false_iff.mpr hcase]
        exact .managerExit hw hpc hexit
      · cases h
  · next hpc =>
    obtain rfl := Option.some.inj h
    exact .managerStop reload hw hpc
  · cases h

theorem initStep_eq_some {i : ℕ} {pc : InitPc} (hi : s.inits[i]? = some pc) (h : s.initStep i pc = some s') :
    Step s (.initGo i) s' := by
  unfold initStep at h
  split at h
  · obtain rfl := Option.some.inj h
    exact .initCheck hi
  · split at h
    · cases h
    · next hreload =>
      obtain rfl := Option.some.inj h
      exact .initSend hi (Bool.eq_false_iff.mpr hreload)
  · cases h

theorem step_eq_some (h : s.step a = some s') : Step s a s' := by
  cases a with
  | get service =>
    unfold step at h
    dsimp only at h
    split at h
    · next hwatched =>
      obtain rfl := Option.some.inj h
      exact .getWatched hwatched
    · next hwatched =>
      obtain rfl := Option.some.inj h
      exact .getNew (Bool.eq_false_iff.mpr hwatched)
  | init =>
    obtain rfl := Option.some.inj h
    exact .init
  | close =>
    unfold step at h
    dsimp only at h
    split at h
    · next hclosing =>
      obtain rfl := Option.some.inj h
      exact .closeExit hclosing
    · next hclosing =>
      obtain rfl := Option.some.inj h
      exact .closeLock (Bool.eq_false_iff.mpr hclosing)
  | run i a =>
    obtain ⟨r, hi, h⟩ := Option.bind_eq_some_iff.mp h
    exact runStep_eq_some hi h
  | manager w reload =>
    obtain ⟨x, hw, h⟩ := Option.bind_eq_some_iff.mp h
    exact managerStep_eq_some hw h
  | initGo i =>
    obtain ⟨pc, hi, h⟩ := Option.bind_eq_some_iff.mp h
    exact initStep_eq_some hi h

/-! ## Watchers and their goroutines -/

/-- What holds in every run. -/
structure Inv (s : State) : Prop where
  made : ∀ (i : ℕ) (r : Runner) w, s.runners[i]? = some r → r.Holds w → w < s.watchers.length
  unique : ∀ (i j : ℕ) (r r' : Runner) w, s.runners[i]? = some r → s.runners[j]? = some r' →
    r.Holds w → r'.Holds w → i = j
  held : ∀ (w : ℕ) (x : Watcher), s.watchers[w]? = some x → x.stopped = false →
    ∃ (i : ℕ) (r : Runner), s.runners[i]? = some r ∧ r.Holds w
  manager : ∀ (w : ℕ) (x : Watcher), s.watchers[w]? = some x → x.manager = .ended → x.stopped = true
  alive : s.exit = false → ∀ (i : ℕ) (r : Runner), s.runners[i]? = some r → r.pc ≠ .ended
  known : s.exit = false → s.closing = false → ∀ service,
    s.watched service = true ↔ ∃ (i : ℕ) (r : Runner), s.runners[i]? = some r ∧ r.service = service
  once : s.exit = false → s.closing = false → ∀ (i j : ℕ) (r r' : Runner), s.runners[i]? = some r →
    s.runners[j]? = some r' → r.service = r'.service → i = j

theorem inv_start : start.Inv where
  made := nofun
  unique := nofun
  held := nofun
  manager := nofun
  alive := nofun
  known := by
    intro _ _ service
    simp [start]
  once := nofun

theorem getElem?_setRun {i : ℕ} {r : Runner} (hi : s.runners[i]? = some r) (pc : RunPc) (j : ℕ) :
    (s.setRun i r pc).runners[j]? = if j = i then some { r with pc } else s.runners[j]? := by
  unfold setRun
  rw [List.getElem?_set]
  obtain ⟨hlt, -⟩ := List.getElem?_eq_some_iff.mp hi
  by_cases hj : j = i
  · rw [if_pos hj.symm, if_pos hj, if_pos hlt]
  · rw [if_neg (Ne.symm hj), if_neg hj]

theorem getElem?_concat {α : Type} {l : List α} {a b : α} {j : ℕ} :
    (l ++ [a])[j]? = some b ↔ l[j]? = some b ∨ j = l.length ∧ b = a := by
  rcases lt_trichotomy j l.length with hlt | rfl | hgt
  · rw [List.getElem?_append_left hlt]
    simp [hlt.ne]
  · simp [eq_comm]
  · rw [List.getElem?_append_right hgt.le]
    have hnone : l[j]? = none := List.getElem?_eq_none hgt.le
    have hsub : j - l.length ≠ 0 := by omega
    simp [hnone, hgt.ne', hsub]

theorem getElem?_modify {w v : ℕ} {f : Watcher → Watcher} {x' : Watcher} {l : List Watcher} :
    (l.modify w f)[v]? = some x' ↔ ∃ x, l[v]? = some x ∧ x' = if w = v then f x else x := by
  rw [List.getElem?_modify]
  simp [eq_comm]

/-- What a goroutine of `run` does to the watchers when it moves: it may get a new one, and it lets go only of
one that is stopped. -/
structure Hands (s : State) (r : Runner) (pc : RunPc) (watchers : List Watcher) : Prop where
  length : s.watchers.length ≤ watchers.length
  got : ∀ w, Runner.Holds { r with pc } w → w < watchers.length ∧ (r.Holds w ∨ s.watchers.length ≤ w)
  kept : ∀ (w : ℕ) (x : Watcher), watchers[w]? = some x → x.stopped = false →
    Runner.Holds { r with pc } w ∨ ¬ r.Holds w ∧ ∃ x' : Watcher, s.watchers[w]? = some x' ∧ x'.stopped = false
  manager : ∀ (w : ℕ) (x : Watcher), watchers[w]? = some x → x.manager = .ended → x.stopped = true

theorem Inv.setRun (h : s.Inv) {i : ℕ} {r : Runner} (hi : s.runners[i]? = some r) {pc : RunPc}
    {watchers : List Watcher} (hhands : Hands s r pc watchers) (hended : s.exit = false → pc ≠ .ended) :
    Inv { s.setRun i r pc with watchers } := by
  have hget : ∀ j, (s.setRun i r pc).runners[j]? = if j = i then some { r with pc } else s.runners[j]? :=
    getElem?_setRun hi pc
  have hservice : ∀ (j : ℕ) (r' : Runner), (s.setRun i r pc).runners[j]? = some r' →
      ∃ r'' : Runner, s.runners[j]? = some r'' ∧ r''.service = r'.service := by
    intro j r' hj
    rw [hget] at hj
    split at hj
    · next hji =>
      obtain rfl := Option.some.inj hj
      exact ⟨r, hji ▸ hi, rfl⟩
    · exact ⟨r', hj, rfl⟩
  refine ⟨?_, ?_, ?_, hhands.manager, ?_, ?_, ?_⟩
  · intro j r' w hj hw
    dsimp only at hj
    rw [hget] at hj
    split at hj
    · obtain rfl := Option.some.inj hj
      exact (hhands.got w hw).1
    · exact (h.made j r' w hj hw).trans_le hhands.length
  · -- the watcher that is held twice was held before, or is new
    have hother : ∀ (j : ℕ) (r' : Runner) w, j ≠ i → s.runners[j]? = some r' → r'.Holds w →
        ¬ Runner.Holds { r with pc } w := by
      intro j r' w hj hr' hw hw'
      rcases (hhands.got w hw').2 with hold | hnew
      · exact hj (h.unique j i r' r w hr' hi hw hold)
      · exact absurd (h.made j r' w hr' hw) (not_lt.mpr hnew)
    intro j k r₁ r₂ w hj hk h₁ h₂
    dsimp only at hj hk
    rw [hget] at hj hk
    split at hj
    · next hji =>
      split at hk
      · next hki => exact hji.trans hki.symm
      · next hki =>
        obtain rfl := Option.some.inj hj
        exact absurd h₁ (hother k r₂ w hki hk h₂)
    · next hji =>
      split at hk
      · obtain rfl := Option.some.inj hk
        exact absurd h₂ (hother j r₁ w hji hj h₁)
      · exact h.unique j k r₁ r₂ w hj hk h₁ h₂
  · intro w x hx hopen
    rcases hhands.kept w x hx hopen with hself | ⟨hnot, x', hx', hopen'⟩
    · exact ⟨i, _, (hget i).trans (if_pos rfl), hself⟩
    · obtain ⟨j, r', hj, hw⟩ := h.held w x' hx' hopen'
      have hji : j ≠ i := by
        rintro rfl
        obtain rfl := Option.some.inj (hi.symm.trans hj)
        exact hnot hw
      exact ⟨j, r', (hget j).trans ((if_neg hji).trans hj), hw⟩
  · intro hexit j r' hj
    dsimp only at hj
    rw [hget] at hj
    split at hj
    · obtain rfl := Option.some.inj hj
      exact hended hexit
    · exact h.alive hexit j r' hj
  · intro hexit hclosing service
    refine (h.known hexit hclosing service).trans ⟨?_, ?_⟩
    · rintro ⟨j, r'', hj, rfl⟩
      by_cases hji : j = i
      · subst hji
        obtain rfl := Option.some.inj (hi.symm.trans hj)
        exact ⟨j, _, (hget j).trans (if_pos rfl), rfl⟩
      · exact ⟨j, r'', (hget j).trans ((if_neg hji).trans hj), rfl⟩
    · rintro ⟨j, r', hj, rfl⟩
      obtain ⟨r'', hj', hsame⟩ := hservice j r' hj
      exact ⟨j, r'', hj', hsame⟩
  · intro hexit hclosing j k r₁ r₂ hj hk hsame
    obtain ⟨r₁', hj', hr₁⟩ := hservice j r₁ hj
    obtain ⟨r₂', hk', hr₂⟩ := hservice k r₂ hk
    exact h.once hexit hclosing j k r₁' r₂' hj' hk' (hr₁.trans (hsame.trans hr₂.symm))

/-- Nothing happens to the watchers. -/
theorem Inv.hands_of_holds (h : s.Inv) {i : ℕ} {r : Runner} (hi : s.runners[i]? = some r) {pc : RunPc}
    (hholds : ∀ w, Runner.Holds { r with pc } w ↔ r.Holds w) : Hands s r pc s.watchers where
  length := le_refl _
  got w hw := ⟨h.made i r w hi ((hholds w).mp hw), .inl ((hholds w).mp hw)⟩
  kept w x hx hopen := by
    by_cases hw : r.Holds w
    · exact .inl ((hholds w).mpr hw)
    · exact .inr ⟨hw, x, hx, hopen⟩
  manager := h.manager

theorem Moves.holds_iff {exit : Bool} {r : Runner} {a : RunAct} {pc : RunPc} (h : Moves exit r.pc a pc) (w : ℕ) :
    Runner.Holds { r with pc } w ↔ r.Holds w := by
  obtain ⟨service, pc₀⟩ := r
  unfold Runner.Holds
  dsimp only at h ⊢
  cases h <;> cases exit <;> simp

theorem Moves.ne_ended {pc₀ pc : RunPc} {a : RunAct} (h : Moves false pc₀ a pc) : pc ≠ .ended := by
  cases h <;> simp

/-- A watcher changes, and stays as open as it is held. -/
theorem Inv.setWatchers (h : s.Inv) {w : ℕ} {f : Watcher → Watcher}
    (hstopped : ∀ x : Watcher, (f x).stopped = false → x.stopped = false)
    (hmanager : ∀ x : Watcher, s.watchers[w]? = some x → (f x).manager = .ended → (f x).stopped = true) :
    Inv { s with watchers := s.watchers.modify w f } where
  made i r v hi hv := by
    rw [List.length_modify]
    exact h.made i r v hi hv
  unique := h.unique
  held := by
    intro v x' hx' hopen
    obtain ⟨x, hx, rfl⟩ := getElem?_modify.mp hx'
    refine h.held v x hx ?_
    split at hopen
    · exact hstopped x hopen
    · exact hopen
  manager := by
    intro v x' hx' hended
    obtain ⟨x, hx, rfl⟩ := getElem?_modify.mp hx'
    split
    · next hwv =>
      rw [if_pos hwv] at hended
      exact hmanager x (hwv ▸ hx) hended
    · next hwv =>
      rw [if_neg hwv] at hended
      exact h.manager v x hx hended
  alive := h.alive
  known := h.known
  once := h.once

theorem Inv.step (h : s.Inv) (hstep : Step s a s') : s'.Inv := by
  cases hstep with
  | getWatched _ => exact h
  | getNew hnew =>
    rename_i service
    have hget : ∀ (j : ℕ) (r : Runner), (s.runners ++ [⟨service, .check⟩])[j]? = some r →
        s.runners[j]? = some r ∨ j = s.runners.length ∧ r = ⟨service, .check⟩ :=
      fun j r => getElem?_concat.mp
    have hnot : ∀ w, ¬ Runner.Holds ⟨service, .check⟩ w := by
      rintro w (hw | hw) <;> cases hw
    have hfresh : s.exit = false → s.closing = false → ∀ (j : ℕ) (r : Runner), s.runners[j]? = some r →
        r.service ≠ service := by
      rintro hexit hclosing j r hj rfl
      rw [(h.known hexit hclosing r.service).mpr ⟨j, r, hj, rfl⟩] at hnew
      cases hnew
    refine ⟨?_, ?_, ?_, h.manager, ?_, ?_, ?_⟩
    · intro j r w hj hw
      rcases hget j r hj with hj | ⟨-, rfl⟩
      · exact h.made j r w hj hw
      · exact absurd hw (hnot w)
    · intro j k r r' w hj hk hw hw'
      rcases hget j r hj with hj | ⟨-, rfl⟩
      · rcases hget k r' hk with hk | ⟨-, rfl⟩
        · exact h.unique j k r r' w hj hk hw hw'
        · exact absurd hw' (hnot w)
      · exact absurd hw (hnot w)
    · intro w x hx hopen
      obtain ⟨j, r, hj, hw⟩ := h.held w x hx hopen
      exact ⟨j, r, getElem?_concat.mpr (.inl hj), hw⟩
    · intro hexit j r hj
      rcases hget j r hj with hj | ⟨-, rfl⟩
      · exact h.alive hexit j r hj
      · exact RunPc.noConfusion
    · intro hexit hclosing name
      by_cases hname : name = service
      · subst hname
        refine iff_of_true (Function.update_self _ _ _) ⟨_, _, getElem?_concat.mpr (.inr ⟨rfl, rfl⟩), rfl⟩
      · dsimp only
        rw [Function.update_of_ne hname, h.known hexit hclosing name]
        constructor
        · rintro ⟨j, r, hj, rfl⟩
          exact ⟨j, r, getElem?_concat.mpr (.inl hj), rfl⟩
        · rintro ⟨j, r, hj, rfl⟩
          rcases hget j r hj with hj | ⟨-, rfl⟩
          · exact ⟨j, r, hj, rfl⟩
          · exact absurd rfl hname
    · intro hexit hclosing j k r r' hj hk hsame
      rcases hget j r hj with hj | ⟨rfl, rfl⟩
      · rcases hget k r' hk with hk | ⟨-, rfl⟩
        · exact h.once hexit hclosing j k r r' hj hk hsame
        · exact absurd hsame (hfresh hexit hclosing j r hj)
      · rcases hget k r' hk with hk | ⟨rfl, -⟩
        · exact absurd hsame.symm (hfresh hexit hclosing k r' hk)
        · rfl
  | init => exact ⟨h.made, h.unique, h.held, h.manager, h.alive, h.known, h.once⟩
  | closeLock _ =>
    exact ⟨h.made, h.unique, h.held, h.manager, h.alive, fun _ => Bool.noConfusion, fun _ => Bool.noConfusion⟩
  | closeExit _ =>
    exact ⟨h.made, h.unique, h.held, h.manager, Bool.noConfusion, Bool.noConfusion, Bool.noConfusion⟩
  | move hi hmoves =>
    refine h.setRun hi (h.hands_of_holds hi hmoves.holds_iff) fun hexit => ?_
    rw [hexit] at hmoves
    exact hmoves.ne_ended
  | watched hi hpc =>
    rename_i i r
    have hnot : ∀ w, ¬ r.Holds w := by
      rintro w (hw | hw) <;> rw [hpc] at hw <;> cases hw
    refine h.setRun hi ⟨?_, ?_, ?_, ?_⟩ fun _ => RunPc.noConfusion
    · simp
    · rintro w (hw | hw) <;> cases hw
      exact ⟨by simp, .inr (le_refl _)⟩
    · intro w x hx hopen
      rcases getElem?_concat.mp hx with hx | ⟨rfl, rfl⟩
      · exact .inr ⟨hnot w, x, hx, hopen⟩
      · exact .inl (.inl rfl)
    · intro w x hx hended
      rcases getElem?_concat.mp hx with hx | ⟨-, rfl⟩
      · exact h.manager w x hx hended
      · cases hended
  | result _ _ => exact h
  | stop hi hpc =>
    rename_i i w r
    refine h.setRun hi ⟨?_, ?_, ?_, ?_⟩ fun _ => RunPc.noConfusion
    · exact (List.length_modify _ _ _).ge
    · rintro v (hv | hv) <;> cases hv
    · intro v x' hx' hopen
      obtain ⟨x, hx, rfl⟩ := getElem?_modify.mp hx'
      split at hopen
      · cases hopen
      · next hwv =>
        refine .inr ⟨?_, x, hx, hopen⟩
        rintro (hv | hv) <;> rw [hpc] at hv <;> cases hv
        exact hwv rfl
    · intro v x' hx' hended
      obtain ⟨x, hx, rfl⟩ := getElem?_modify.mp hx'
      split
      · rfl
      · next hwv =>
        rw [if_neg hwv] at hended
        exact h.manager v x hx hended
  | managerReload hw hpc _ =>
    rename_i w x _
    have hset := h.setWatchers (w := w) (f := fun x => { x with manager := .stopping }) (fun _ hopen => hopen)
      fun _ _ => ManagerPc.noConfusion
    exact ⟨hset.made, hset.unique, hset.held, hset.manager, hset.alive, hset.known, hset.once⟩
  | managerExit hw hpc _ =>
    rename_i w x _
    exact h.setWatchers (w := w) (f := fun x => { x with manager := .stopping }) (fun _ hopen => hopen)
      fun _ _ => ManagerPc.noConfusion
  | managerStop reload hw hpc =>
    rename_i w x
    have hstop : (s.stop w).Inv :=
      h.setWatchers (w := w) (f := fun x => { x with stopped := true }) (fun _ => Bool.noConfusion) fun _ _ _ => rfl
    refine hstop.setWatchers (w := w) (f := fun x => { x with manager := .ended }) (fun _ hopen => hopen) fun x hx _ => ?_
    obtain ⟨x', -, rfl⟩ := getElem?_modify.mp hx
    rw [if_pos rfl]
  | initCheck _ => exact ⟨h.made, h.unique, h.held, h.manager, h.alive, h.known, h.once⟩
  | initSend _ _ => exact ⟨h.made, h.unique, h.held, h.manager, h.alive, h.known, h.once⟩

theorem inv_of_reachable (h : Reachable step start s) : s.Inv := by
  obtain ⟨as, hrun⟩ := h
  exact reachable_invariant inv_start (fun _ _ _ hinv hstep => hinv.step (step_eq_some hstep)) ⟨as, hrun⟩

/-- Each watcher that is not stopped is held by one goroutine, and until `Close` is called each service that is
watched has one goroutine, which has not ended. -/
structure Orderly (s : State) : Prop where
  held : ∀ (w : ℕ) (x : Watcher), s.watchers[w]? = some x → x.stopped = false →
    ∃! i : ℕ, ∃ r : Runner, s.runners[i]? = some r ∧ r.Holds w
  watched : s.exit = false → s.closing = false → ∀ service, s.watched service = true →
    ∃! i : ℕ, ∃ r : Runner, s.runners[i]? = some r ∧ r.service = service ∧ r.pc ≠ .ended
  unwatched : s.exit = false → s.closing = false → ∀ service, s.watched service = false →
    ∀ (i : ℕ) (r : Runner), s.runners[i]? = some r → r.service ≠ service

theorem Inv.orderly (h : s.Inv) : s.Orderly where
  held := by
    intro w x hx hopen
    obtain ⟨i, r, hi, hw⟩ := h.held w x hx hopen
    refine ⟨i, ⟨r, hi, hw⟩, ?_⟩
    rintro j ⟨r', hj, hw'⟩
    exact h.unique j i r' r w hj hi hw' hw
  watched := by
    intro hexit hclosing service hwatched
    obtain ⟨i, r, hi, hservice⟩ := (h.known hexit hclosing service).mp hwatched
    refine ⟨i, ⟨r, hi, hservice, h.alive hexit i r hi⟩, ?_⟩
    rintro j ⟨r', hj, hservice', -⟩
    exact h.once hexit hclosing j i r' r hj hi (hservice'.trans hservice.symm)
  unwatched := by
    intro hexit hclosing service hwatched i r hi hservice
    rw [(h.known hexit hclosing service).mpr ⟨i, r, hi, hservice⟩] at hwatched
    cases hwatched

/-- **No watcher is lost, and no service is watched twice**, in any interleaving of calls, goroutines and
failures. -/
theorem orderly_of_run {as : List Act} (hrun : run step start as = some s) : s.Orderly :=
  (inv_of_reachable ⟨as, hrun⟩).orderly

/-- A watcher that is reloaded, and the next one. -/
def reloadRun : List Act :=
  [.get "chat", .run 0 .next, .run 0 .watched, .get "chat", .init, .initGo 0, .initGo 0, .manager 0 true,
    .manager 0 true, .run 0 .error, .run 0 .next, .run 0 .next, .run 0 .next, .run 0 .watched]

theorem orderly_of_run_reload :
    ∃ s, run step start reloadRun = some s ∧ s.watchers.length = 2 ∧ s.Orderly := by
  have hrun : run step start reloadRun = some _ := rfl
  exact ⟨_, hrun, rfl, orderly_of_run hrun⟩

end State

end Lifecycle

end Vmqant.Selector
