import Vmqant.Selector.Lifecycle

/-!
# Closing the cache

Reference: `selector/cache/cache.go`, lines 263-336 and 389-402.

After `exit` is closed, each goroutine has only so many steps to make, whatever the registry sends and whoever
calls: `work` counts them. When those that it must make are made, every watcher is stopped and every goroutine
has ended, but for goroutines of `Init` that wait for room in `reload`, which nobody receives from any more.
-/

namespace Vmqant.Selector

open Lts

namespace Lifecycle

/-! ## The steps that are left -/

/-- The steps of a goroutine of `run` after `exit` is closed, with those of the goroutine of its next watcher. -/
def RunPc.work : RunPc → ℕ
  | .watch => 6
  | .next _ => 3
  | .sleep | .stopping _ => 2
  | .check | .failed | .returned => 1
  | .ended => 0

def ManagerPc.work : ManagerPc → ℕ
  | .waiting => 2
  | .stopping => 1
  | .ended => 0

def InitPc.work : InitPc → ℕ
  | .check | .sending => 1
  | .ended => 0

/-- A call, which may start a goroutine. -/
def Act.isCall : Act → Bool
  | .get _ | .init | .close => true
  | _ => false

/-- A step by which a goroutine gets on. -/
def Act.own : Act → Bool
  | .run _ .result | .get _ | .init | .close => false
  | _ => true

namespace State

def work (s : State) : ℕ :=
  (s.runners.map fun r => r.pc.work).sum + (s.watchers.map fun x => x.manager.work).sum +
    (s.inits.map InitPc.work).sum

variable {s s' : State} {a : Act}

theorem sum_map_set {α : Type} (w : α → ℕ) {l : List α} {i : ℕ} {a : α} (h : l[i]? = some a) (b : α) :
    ((l.set i b).map w).sum + w a = (l.map w).sum + w b := by
  induction l generalizing i with
  | nil => cases h
  | cons c l ih =>
    cases i with
    | zero =>
      obtain rfl := Option.some.inj h
      rw [List.set_cons_zero, List.map_cons, List.map_cons, List.sum_cons, List.sum_cons]
      omega
    | succ i =>
      have hl := ih (i := i) h
      rw [List.set_cons_succ, List.map_cons, List.map_cons, List.sum_cons, List.sum_cons]
      omega

theorem sum_map_modify {α : Type} (w : α → ℕ) {l : List α} {i : ℕ} {a : α} (h : l[i]? = some a) (f : α → α) :
    ((l.modify i f).map w).sum + w a = (l.map w).sum + w (f a) := by
  have hset : l.modify i f = l.set i (f a) := by
    rw [List.modify_eq_set_getElem?, h]
    rfl
  rw [hset, sum_map_set w h]

theorem sum_map_concat {α : Type} (w : α → ℕ) (l : List α) (a : α) :
    ((l ++ [a]).map w).sum = (l.map w).sum + w a := by
  rw [List.map_append, List.sum_append, List.map_singleton, List.sum_singleton]

theorem work_setRun {i : ℕ} {r : Runner} (hi : s.runners[i]? = some r) (pc : RunPc) :
    (s.setRun i r pc).work + r.pc.work = s.work + pc.work := by
  have hsum := sum_map_set (fun r : Runner => r.pc.work) hi { r with pc }
  unfold work setRun
  dsimp only at hsum ⊢
  omega

theorem work_setManager {w : ℕ} {x : Watcher} (hw : s.watchers[w]? = some x) (pc : ManagerPc) :
    (s.setManager w pc).work + x.manager.work = s.work + pc.work := by
  have hsum := sum_map_modify (fun x : Watcher => x.manager.work) hw fun x => { x with manager := pc }
  unfold work setManager
  dsimp only at hsum ⊢
  omega

theorem work_setInit {i : ℕ} {pc₀ : InitPc} (hi : s.inits[i]? = some pc₀) (pc : InitPc) :
    work { s with inits := s.inits.set i pc } + pc₀.work = s.work + pc.work := by
  have hsum := sum_map_set InitPc.work hi pc
  unfold work
  dsimp only
  omega

/-- To stop a watcher leaves its goroutine where it is. -/
theorem work_stop (s : State) (w : ℕ) : (s.stop w).work = s.work := by
  unfold work stop
  dsimp only
  cases hw : s.watchers[w]? with
  | none => rw [List.modify_eq_self (List.getElem?_eq_none_iff.mp hw)]
  | some x =>
    have hsum := sum_map_modify (fun x : Watcher => x.manager.work) hw fun x => { x with stopped := true }
    dsimp only at hsum
    omega

theorem Moves.work_lt {pc₀ pc : RunPc} {a : RunAct} (h : Moves true pc₀ a pc) : pc.work < pc₀.work := by
  cases h <;> simp [RunPc.work]

theorem Moves.own {exit : Bool} {pc₀ pc : RunPc} {a : RunAct} (h : Moves exit pc₀ a pc) (i : ℕ) :
    (Act.run i a).own = true := by
  cases h <;> rfl

/-- After `exit` is closed, a step of a goroutine does work, and a call makes some at most. -/
theorem work_step (hexit : s.exit = true) (hstep : Step s a s') :
    s'.exit = true ∧ s'.work + a.own.toNat ≤ s.work + a.isCall.toNat := by
  cases hstep with
  | getWatched _ => exact ⟨hexit, Nat.le_succ _⟩
  | getNew _ =>
    refine ⟨hexit, ?_⟩
    unfold work
    dsimp only
    rw [sum_map_concat]
    simp only [RunPc.work, Act.own, Act.isCall, Bool.toNat_false, Bool.toNat_true]
    omega
  | init =>
    refine ⟨hexit, ?_⟩
    unfold work
    dsimp only
    rw [sum_map_concat]
    simp only [InitPc.work, Act.own, Act.isCall, Bool.toNat_false, Bool.toNat_true]
    omega
  | closeLock _ => exact ⟨hexit, Nat.le_succ _⟩
  | closeExit _ => exact ⟨rfl, Nat.le_succ _⟩
  | move hi hmoves =>
    rename_i i r a pc
    have hsum := work_setRun hi pc
    have hown := hmoves.own i
    rw [hexit] at hmoves
    have hlt := hmoves.work_lt
    refine ⟨hexit, ?_⟩
    rw [hown]
    simp only [Act.isCall, Bool.toNat_false, Bool.toNat_true]
    omega
  | watched hi hpc =>
    rename_i i r
    have hsum := work_setRun hi (.next s.watchers.length)
    refine ⟨hexit, ?_⟩
    unfold work setRun at hsum ⊢
    dsimp only at hsum ⊢
    rw [sum_map_concat]
    rw [hpc] at hsum
    simp only [RunPc.work, ManagerPc.work, Act.own, Act.isCall, Bool.toNat_false, Bool.toNat_true] at hsum ⊢
    omega
  | result _ _ => exact ⟨hexit, le_refl _⟩
  | stop hi hpc =>
    rename_i i w r
    have hsum := work_setRun (s := s.stop w) hi .returned
    rw [hpc, work_stop] at hsum
    refine ⟨hexit, ?_⟩
    simp only [RunPc.work, Act.own, Act.isCall, Bool.toNat_false, Bool.toNat_true] at hsum ⊢
    omega
  | managerReload hw hpc _ =>
    have hsum := work_setManager hw .stopping
    rw [hpc] at hsum
    refine ⟨hexit, ?_⟩
    unfold work at hsum ⊢
    simp only [ManagerPc.work, Act.own, Act.isCall, Bool.toNat_false, Bool.toNat_true] at hsum ⊢
    omega
  | managerExit hw hpc _ =>
    have hsum := work_setManager hw .stopping
    rw [hpc] at hsum
    refine ⟨hexit, ?_⟩
    simp only [ManagerPc.work, Act.own, Act.isCall, Bool.toNat_false, Bool.toNat_true] at hsum ⊢
    omega
  | managerStop reload hw hpc =>
    rename_i w x
    have hw' : (s.stop w).watchers[w]? = some { x with stopped := true } :=
      getElem?_modify.mpr ⟨x, hw, (if_pos rfl).symm⟩
    have hsum := work_setManager hw' .ended
    rw [work_stop] at hsum
    dsimp only at hsum
    rw [hpc] at hsum
    refine ⟨hexit, ?_⟩
    simp only [ManagerPc.work, Act.own, Act.isCall, Bool.toNat_false, Bool.toNat_true] at hsum ⊢
    omega
  | initCheck hi =>
    have hsum := work_setInit hi .ended
    refine ⟨hexit, ?_⟩
    rw [if_pos hexit]
    simp only [InitPc.work, Act.own, Act.isCall, Bool.toNat_false, Bool.toNat_true] at hsum ⊢
    omega
  | initSend hi _ =>
    have hsum := work_setInit hi .ended
    refine ⟨hexit, ?_⟩
    unfold work at hsum ⊢
    simp only [InitPc.work, Act.own, Act.isCall, Bool.toNat_false, Bool.toNat_true] at hsum ⊢
    omega

/-- In a run the goroutines make no more steps than there is work, with a step for each call. -/
theorem work_run {as : List Act} (hexit : s.exit = true) (hrun : run step s as = some s') :
    s'.exit = true ∧ s'.work + as.countP Act.own ≤ s.work + as.countP Act.isCall := by
  induction as generalizing s with
  | nil =>
    obtain rfl := Option.some.inj hrun
    exact ⟨hexit, le_refl _⟩
  | cons a as ih =>
    obtain ⟨s₁, hs₁, hrun⟩ := run_cons_eq_some.mp hrun
    obtain ⟨hexit₁, hstep⟩ := work_step hexit (step_eq_some hs₁)
    obtain ⟨hexit', hle⟩ := ih hexit₁ hrun
    refine ⟨hexit', ?_⟩
    rw [List.countP_cons, List.countP_cons]
    unfold Bool.toNat at hstep
    cases hown : a.own <;> cases hcall : a.isCall <;> rw [hown, hcall] at hstep <;> simp at hstep ⊢ <;> omega

/-! ## The end -/

/-- The steps that come about if they are waited for: `Next` need not fail unless the watcher is stopped. -/
def Promised (s : State) : Act → Prop
  | .run i .error => ∃ (r : Runner) (w : ℕ) (x : Watcher), s.runners[i]? = some r ∧ r.pc = .next w ∧
      s.watchers[w]? = some x ∧ x.stopped = true
  | a => a.own = true

/-- Nothing is left but goroutines of `Init` that wait for room in `reload`. -/
structure Ended (s : State) : Prop where
  runners : ∀ (i : ℕ) (r : Runner), s.runners[i]? = some r → r.pc = .ended
  watchers : ∀ (w : ℕ) (x : Watcher), s.watchers[w]? = some x → x.stopped = true ∧ x.manager = .ended
  inits : ∀ (i : ℕ) (pc : InitPc), s.inits[i]? = some pc → pc = .ended ∨ pc = .sending ∧ s.reload = true

theorem Promised.own {s : State} {a : Act} (h : s.Promised a) : a.own = true := by
  cases a with
  | run i a =>
    cases a with
    | error => rfl
    | _ => exact h
  | _ => exact h

theorem ended_of_settled (hinv : s.Inv) (hexit : s.exit = true) (hsettled : ∀ a, s.Promised a → s.step a = none) :
    s.Ended := by
  have hmanager : ∀ (w : ℕ) (x : Watcher), s.watchers[w]? = some x → x.stopped = true ∧ x.manager = .ended := by
    intro w x hx
    have hstep := hsettled (.manager w false) rfl
    unfold step at hstep
    dsimp only at hstep
    rw [hx, Option.bind_some] at hstep
    unfold managerStep at hstep
    cases hpc : x.manager with
    | waiting =>
      rw [hpc, hexit] at hstep
      cases hstep
    | stopping =>
      rw [hpc] at hstep
      cases hstep
    | ended => exact ⟨hinv.manager w x hx hpc, rfl⟩
  refine ⟨fun i r hi => ?_, hmanager, fun i pc hi => ?_⟩
  · have hrun : ∀ a, s.Promised (.run i a) → s.runStep i r a = none := by
      intro a ha
      have hstep := hsettled (.run i a) ha
      unfold step at hstep
      dsimp only at hstep
      rwa [hi, Option.bind_some] at hstep
    have hnext := hrun .next rfl
    have hrefused := hrun .refused rfl
    have herror := hrun .error
    unfold runStep at hnext hrefused herror
    cases hpc : r.pc with
    | next w =>
      obtain ⟨x, hx⟩ : ∃ x, s.watchers[w]? = some x :=
        ⟨_, List.getElem?_eq_getElem (hinv.made i r w hi (.inl hpc))⟩
      rw [hpc] at herror
      cases herror ⟨r, w, x, hi, hpc, hx, (hmanager w x hx).1⟩
    | watch =>
      rw [hpc] at hrefused
      cases hrefused
    | ended => rfl
    | check | failed | sleep | stopping _ | returned =>
      rw [hpc] at hnext
      cases hnext
  · have hstep := hsettled (.initGo i) rfl
    unfold step at hstep
    dsimp only at hstep
    rw [hi, Option.bind_some] at hstep
    unfold initStep at hstep
    cases pc with
    | check => cases hstep
    | ended => exact .inl rfl
    | sending =>
      dsimp only at hstep
      split at hstep
      · next hreload => exact .inr ⟨rfl, hreload⟩
      · cases hstep

open Classical in
/-- The promised steps alone. -/
noncomputable def settle (s : State) (a : Act) : Option State := if s.Promised a then s.step a else none

theorem settle_eq_some (h : settle s a = some s') : s.Promised a ∧ Step s a s' := by
  unfold settle at h
  split at h
  · next ha => exact ⟨ha, step_eq_some h⟩
  · cases h

/-- **`Close` ends everything**: after `exit` is closed the goroutines make no more steps than `work` and the
calls that follow allow, in any run; when those that are promised are made, everything has ended, and they can
always be made. -/
theorem close_ends {as : List Act} (hrun : run step start as = some s) (hexit : s.exit = true) :
    (∀ bs s', run step s bs = some s' → bs.countP Act.own ≤ s.work + bs.countP Act.isCall ∧
      ((∀ a, s'.Promised a → s'.step a = none) → s'.Ended)) ∧
    ∃ bs s', run settle s bs = some s' ∧ s'.Ended := by
  have hinv := inv_of_reachable ⟨as, hrun⟩
  refine ⟨fun bs s' hbs => ?_, ?_⟩
  · obtain ⟨hexit', hle⟩ := work_run hexit hbs
    have hinv' : s'.Inv := run_invariant (C := fun _ _ => True)
      (fun _ _ _ h _ hstep => h.step (step_eq_some hstep)) hinv (along_of_mem (fun _ _ _ => trivial) s) hbs
    exact ⟨by omega, ended_of_settled hinv' hexit'⟩
  · have hwork : ∀ s a s', (s.Inv ∧ s.exit = true) → settle s a = some s' →
        (s'.Inv ∧ s'.exit = true) ∧ s'.work < s.work := by
      rintro s a s' ⟨hinv, hexit⟩ hstep
      obtain ⟨hpromised, hstep⟩ := settle_eq_some hstep
      obtain ⟨hexit', hle⟩ := work_step hexit hstep
      have hown := hpromised.own
      have hcall : a.isCall = false := by
        cases a <;> first | rfl | cases hown
      rw [hown, hcall, Bool.toNat_true, Bool.toNat_false] at hle
      exact ⟨⟨hinv.step hstep, hexit'⟩, by omega⟩
    obtain ⟨bs, s', hbs, hfinal⟩ := exists_final hwork ⟨hinv, hexit⟩
    obtain ⟨hinv', hexit'⟩ := run_invariant (P := fun s => s.Inv ∧ s.exit = true) (C := fun _ _ => True)
      (fun s a s' h _ hstep => (hwork s a s' h hstep).1) ⟨hinv, hexit⟩ (along_of_mem (fun _ _ _ => trivial) s) hbs
    refine ⟨bs, s', hbs, ended_of_settled hinv' hexit' fun a ha => ?_⟩
    have hnone := hfinal a
    unfold settle at hnone
    rwa [if_pos ha] at hnone

/-- A service is watched, and the cache is closed while `Next` waits. -/
def closeRun : List Act := [.get "chat", .run 0 .next, .run 0 .watched, .close, .close]

theorem close_ends_chat :
    ∃ s, run step start closeRun = some s ∧ s.work = 5 ∧
      (∀ bs s', run step s bs = some s' → bs.countP Act.own ≤ s.work + bs.countP Act.isCall ∧
        ((∀ a, s'.Promised a → s'.step a = none) → s'.Ended)) ∧
      ∃ bs s', run settle s bs = some s' ∧ s'.Ended := by
  have hrun : run step start closeRun = some _ := rfl
  exact ⟨_, hrun, rfl, close_ends hrun rfl⟩

end State

end Lifecycle

end Vmqant.Selector
