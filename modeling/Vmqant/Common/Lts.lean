import Mathlib

/-!
# Runs of a labelled transition system

A system is a partial step function: `step s a` is the state after the action `a`, or `none` when `a`
is not enabled in `s`. The nondeterminism of a concurrent program is in the actions, so an
interleaving is a list of them and a run can be evaluated. `Along C` says that every step of a run
meets the condition `C`, which may look at the state before the step; `run_invariant` carries an
invariant along such a run.
-/

namespace Lts

variable {σ α : Type*}

/-- The state after the actions `as`, if each of them was enabled. -/
def run (step : σ → α → Option σ) : σ → List α → Option σ
  | s, [] => some s
  | s, a :: as => (step s a).bind fun s' => run step s' as

/-- Each action of the run from `s` meets `C` in the state it is taken in. -/
def Along (step : σ → α → Option σ) (C : σ → α → Prop) : σ → List α → Prop
  | _, [] => True
  | s, a :: as => C s a ∧ ∀ s', step s a = some s' → Along step C s' as

/-- Some sequence of actions leads from `init` to `s`. -/
def Reachable (step : σ → α → Option σ) (init s : σ) : Prop := ∃ as, run step init as = some s

/-- What the actions of the run from `s` are to another system: `label` may look at the state. -/
def labels {β : Type*} (step : σ → α → Option σ) (label : σ → α → β) : σ → List α → List β
  | _, [] => []
  | s, a :: as => label s a :: (step s a).elim [] fun s' => labels step label s' as

variable {step : σ → α → Option σ} {C : σ → α → Prop} {P : σ → Prop}

theorem run_cons_eq_some {s s' : σ} {a : α} {as : List α} :
    run step s (a :: as) = some s' ↔ ∃ s₁, step s a = some s₁ ∧ run step s₁ as = some s' :=
  Option.bind_eq_some_iff

theorem run_append (s : σ) (as bs : List α) :
    run step s (as ++ bs) = (run step s as).bind fun s' => run step s' bs := by
  induction as generalizing s with
  | nil => rfl
  | cons a as ih =>
    rw [List.cons_append, run, run, Option.bind_assoc]
    exact Option.bind_congr fun s₁ _ => ih s₁

theorem Reachable.trans {s t u : σ} (h : Reachable step s t) (h' : Reachable step t u) : Reachable step s u := by
  obtain ⟨as, has⟩ := h
  obtain ⟨bs, hbs⟩ := h'
  exact ⟨as ++ bs, by rw [run_append, has]; exact hbs⟩

theorem Along.nil {s : σ} : Along step C s [] := trivial

theorem Along.cons {s s₁ : σ} {a : α} {as : List α} (hC : C s a) (hstep : step s a = some s₁)
    (has : Along step C s₁ as) : Along step C s (a :: as) := by
  refine ⟨hC, fun s' hs' => ?_⟩
  obtain rfl := Option.some.inj (hstep.symm.trans hs')
  exact has

/-- A run along a condition can be tested step by step. -/
instance Along.decidable [∀ s a, Decidable (C s a)] : (s : σ) → (as : List α) → Decidable (Along step C s as)
  | _, [] => isTrue trivial
  | s, a :: as =>
    match hstep : step s a with
    | none => decidable_of_iff (C s a) ⟨fun h => ⟨h, fun _ hs' => nomatch hstep.symm.trans hs'⟩, And.left⟩
    | some s₁ =>
      have := Along.decidable s₁ as
      decidable_of_iff (C s a ∧ Along step C s₁ as)
        ⟨fun h => Along.cons h.1 hstep h.2, fun h => ⟨h.1, h.2 s₁ hstep⟩⟩

/-- A condition that the actions meet in every state. -/
theorem along_of_mem {as : List α} (h : ∀ a ∈ as, ∀ s, C s a) (s : σ) : Along step C s as := by
  induction as generalizing s with
  | nil => exact Along.nil
  | cons a as ih =>
    refine ⟨h a List.mem_cons_self s, fun s' _ => ih (fun b hb => ?_) s'⟩
    exact h b (List.mem_cons_of_mem a hb)

/-- Where each action that meets `C` is enabled, a run is along `C` exactly if all its actions meet it. -/
theorem along_iff_forall {C : α → Prop} (hstep : ∀ s a, P s → C a → ∃ s', step s a = some s' ∧ P s') {s : σ}
    (hs : P s) (as : List α) : Along step (fun _ a => C a) s as ↔ ∀ a ∈ as, C a := by
  refine ⟨fun h => ?_, fun h => along_of_mem (fun a ha _ => h a ha) s⟩
  induction as generalizing s with
  | nil => nofun
  | cons a as ih =>
    obtain ⟨s', hs', hP⟩ := hstep s a hs h.1
    intro b hb
    rcases List.mem_cons.mp hb with rfl | hb
    · exact h.1
    · exact ih hP (h.2 s' hs') b hb

/-- An action that is not enabled where `P` holds leads to one state where `P` holds when it is repeated. -/
theorem run_replicate_unique {a : α} (hstuck : ∀ s, P s → step s a = none) {s x y : σ} {m n : ℕ}
    (hx : run step s (List.replicate m a) = some x) (hPx : P x)
    (hy : run step s (List.replicate n a) = some y) (hPy : P y) : x = y := by
  induction m generalizing s n with
  | zero =>
    obtain rfl := Option.some.inj hx
    cases n with
    | zero => exact Option.some.inj hy
    | succ n =>
      obtain ⟨s₁, hs₁, -⟩ := run_cons_eq_some.mp hy
      exact absurd ((hstuck s hPx).symm.trans hs₁) nofun
  | succ m ih =>
    obtain ⟨s₁, hs₁, hx⟩ := run_cons_eq_some.mp hx
    cases n with
    | zero =>
      obtain rfl := Option.some.inj hy
      exact absurd ((hstuck s hPy).symm.trans hs₁) nofun
    | succ n =>
      obtain ⟨s₂, hs₂, hy⟩ := run_cons_eq_some.mp hy
      obtain rfl := Option.some.inj (hs₁.symm.trans hs₂)
      exact ih hx hy

theorem Along.and {D : σ → α → Prop} {s : σ} {as : List α} (hC : Along step C s as)
    (hD : Along step D s as) : Along step (fun s a => C s a ∧ D s a) s as := by
  induction as generalizing s with
  | nil => exact Along.nil
  | cons a as ih => exact ⟨⟨hC.1, hD.1⟩, fun s' hs' => ih (hC.2 s' hs') (hD.2 s' hs')⟩

/-- What every step that meets `C` preserves holds at the end of every run along `C`. -/
theorem run_invariant (hstep : ∀ s a s', P s → C s a → step s a = some s' → P s')
    {s s' : σ} {as : List α} (hs : P s) (hC : Along step C s as) (hrun : run step s as = some s') :
    P s' := by
  induction as generalizing s with
  | nil =>
    obtain rfl := Option.some.inj hrun
    exact hs
  | cons a as ih =>
    obtain ⟨s₁, hs₁, hrun⟩ := run_cons_eq_some.mp hrun
    exact ih (hstep s a s₁ hs hC.1 hs₁) (hC.2 s₁ hs₁) hrun

/-- Where a step that does not meet `C` leads into `Q`, and nothing leads out of it, the end of a run says
whether the run was along `C`. -/
theorem run_along_or {Q : σ → Prop} (hstep : ∀ s a s', P s → C s a → step s a = some s' → P s')
    (hleave : ∀ s a s', P s → ¬ C s a → step s a = some s' → Q s')
    (htrap : ∀ s a s', Q s → step s a = some s' → Q s') {s s' : σ} {as : List α} (hs : P s)
    (hrun : run step s as = some s') :
    (Along step C s as ∧ P s') ∨ (¬ Along step C s as ∧ Q s') := by
  induction as generalizing s with
  | nil =>
    obtain rfl := Option.some.inj hrun
    exact .inl ⟨Along.nil, hs⟩
  | cons a as ih =>
    obtain ⟨s₁, hs₁, hrun⟩ := run_cons_eq_some.mp hrun
    by_cases hC : C s a
    · rcases ih (hstep s a s₁ hs hC hs₁) hrun with ⟨has, hP⟩ | ⟨has, hQ⟩
      · exact .inl ⟨Along.cons hC hs₁ has, hP⟩
      · exact .inr ⟨fun h => has (h.2 s₁ hs₁), hQ⟩
    · have hQ : Q s' :=
        run_invariant (C := fun _ _ => True) (fun s a s' hs _ h => htrap s a s' hs h)
          (hleave s a s₁ hs hC hs₁) (along_of_mem (fun _ _ _ => trivial) s₁) hrun
      exact .inr ⟨fun h => hC h.1, hQ⟩

/-- A condition that follows from `C` and the invariant `P` holds along every run along `C`. -/
theorem Along.mono {D : σ → α → Prop}
    (hstep : ∀ s a s', P s → C s a → step s a = some s' → P s')
    (hCD : ∀ s a, P s → C s a → D s a) {s : σ} {as : List α} (hs : P s) (h : Along step C s as) :
    Along step D s as := by
  induction as generalizing s with
  | nil => exact Along.nil
  | cons a as ih =>
    refine ⟨hCD s a hs h.1, fun s' hs' => ?_⟩
    exact ih (hstep s a s' hs h.1 hs') (h.2 s' hs')

/-- Conditions that agree where the invariant `P` holds agree along every run. -/
theorem along_congr {D : σ → α → Prop} (hstep : ∀ s a s', P s → step s a = some s' → P s')
    (hCD : ∀ s a, P s → (C s a ↔ D s a)) {s : σ} {as : List α} (hs : P s) :
    Along step C s as ↔ Along step D s as := by
  induction as generalizing s with
  | nil => exact Iff.rfl
  | cons a as ih =>
    refine and_congr (hCD s a hs) (forall₂_congr fun s' hs' => ?_)
    exact ih (hstep s a s' hs hs')

/-- Actions that are always enabled where `P` holds, and preserve it, make up a run. -/
theorem run_total {C : α → Prop} (hstep : ∀ s a, P s → C a → ∃ s', step s a = some s' ∧ P s')
    {s : σ} {as : List α} (hs : P s) (has : ∀ a ∈ as, C a) :
    ∃ s', run step s as = some s' ∧ P s' := by
  induction as generalizing s with
  | nil => exact ⟨s, rfl, hs⟩
  | cons a as ih =>
    obtain ⟨s₁, hs₁, hP⟩ := hstep s a hs (has a List.mem_cons_self)
    obtain ⟨s', hrun, hs'⟩ := ih hP fun b hb => has b (List.mem_cons_of_mem _ hb)
    exact ⟨s', run_cons_eq_some.mpr ⟨s₁, hs₁, hrun⟩, hs'⟩

/-- Where each step is enabled and does to the abstraction of the state what its label does, so do all
runs. -/
theorem run_refines {β τ : Type*} {label : σ → α → β} {abs : σ → τ} {astep : τ → β → τ}
    (hstep : ∀ s a, P s → ∃ s', step s a = some s' ∧ P s' ∧ abs s' = astep (abs s) (label s a))
    {s : σ} (hs : P s) (as : List α) :
    ∃ s', run step s as = some s' ∧ P s' ∧ abs s' = (labels step label s as).foldl astep (abs s) := by
  induction as generalizing s with
  | nil => exact ⟨s, rfl, hs, rfl⟩
  | cons a as ih =>
    obtain ⟨s₁, hs₁, hP, habs₁⟩ := hstep s a hs
    obtain ⟨s', hrun, hs', habs⟩ := ih hP
    refine ⟨s', run_cons_eq_some.mpr ⟨s₁, hs₁, hrun⟩, hs', ?_⟩
    rw [labels, hs₁, Option.elim_some, List.foldl_cons, ← habs₁, habs]

/-- Where related states have related steps, the runs are related, and end together. -/
theorem rel_run {β τ : Type*} {R : σ → τ → Prop} {step' : τ → β → Option τ} {f : α → β} {C : α → Prop}
    (hstep : ∀ s t a, R s t → C a → Option.Rel R (step s a) (step' t (f a))) {s : σ} {t : τ} {as : List α}
    (hst : R s t) (has : ∀ a ∈ as, C a) : Option.Rel R (run step s as) (run step' t (as.map f)) := by
  induction as generalizing s t with
  | nil => exact .some hst
  | cons a as ih =>
    have hfirst := hstep s t a hst (has a List.mem_cons_self)
    rw [List.map_cons, run, run]
    generalize step s a = x, step' t (f a) = y at hfirst ⊢
    cases hfirst with
    | none => exact .none
    | some h => exact ih h fun b hb => has b (List.mem_cons_of_mem a hb)

/-- What holds of the state and the output so far, when each step puts out its label. -/
theorem run_outputs {β : Type*} {label : σ → α → List β} {P : σ → List β → Prop}
    (hstep : ∀ s bs a s', P s bs → step s a = some s' → P s' (bs ++ label s a)) {s s' : σ} {bs : List β}
    {as : List α} (hs : P s bs) (hrun : run step s as = some s') :
    P s' (bs ++ (labels step label s as).flatten) := by
  induction as generalizing s bs with
  | nil =>
    obtain rfl := Option.some.inj hrun
    simpa [labels] using hs
  | cons a as ih =>
    obtain ⟨s₁, hs₁, hrun⟩ := run_cons_eq_some.mp hrun
    rw [labels, hs₁, Option.elim_some, List.flatten_cons, ← List.append_assoc]
    exact ih (hstep s bs a s₁ hs hs₁) hrun

/-- Where `C` says exactly which steps keep `P`, it says which runs keep it all along. -/
theorem prefixes_iff_along (henabled : ∀ s a, P s → ∃ s', step s a = some s')
    (hstep : ∀ s a s', P s → step s a = some s' → (P s' ↔ C s a)) {s : σ} (hs : P s) (as : List α) :
    (∀ bs s', bs <+: as → run step s bs = some s' → P s') ↔ Along step C s as := by
  induction as generalizing s with
  | nil =>
    refine iff_of_true (fun bs s' hbs hrun => ?_) Along.nil
    rw [List.prefix_nil.mp hbs] at hrun
    obtain rfl := Option.some.inj hrun
    exact hs
  | cons a as ih =>
    obtain ⟨s₁, hs₁⟩ := henabled s a hs
    constructor
    · intro h
      have hP : P s₁ := by
        refine h [a] s₁ ⟨as, rfl⟩ ?_
        exact run_cons_eq_some.mpr ⟨s₁, hs₁, rfl⟩
      refine Along.cons ((hstep s a s₁ hs hs₁).mp hP) hs₁ ((ih hP).mp fun bs s' hbs hrun => ?_)
      exact h (a :: bs) s' ((List.prefix_cons_inj a).mpr hbs) (run_cons_eq_some.mpr ⟨s₁, hs₁, hrun⟩)
    · intro h bs s' hbs hrun
      cases bs with
      | nil =>
        obtain rfl := Option.some.inj hrun
        exact hs
      | cons b bs =>
        obtain ⟨rfl, hbs'⟩ := List.cons_prefix_cons.mp hbs
        obtain ⟨s₂, hs₂, hrun⟩ := run_cons_eq_some.mp hrun
        have hP : P s₂ := (hstep s b s₂ hs hs₂).mpr h.1
        exact (ih hP).mpr (h.2 s₂ hs₂) bs s' hbs' hrun

/-- Where nothing is enabled without `P`, and `C` says exactly which steps keep it, the runs that come to
their end with `P` are those along `C`. -/
theorem run_iff_along (henabled : ∀ s a, P s → ∃ s', step s a = some s')
    (hstuck : ∀ s a, ¬ P s → step s a = none)
    (hstep : ∀ s a s', P s → step s a = some s' → (P s' ↔ C s a)) {s : σ} (hs : P s) (as : List α) :
    (∃ s', run step s as = some s' ∧ P s') ↔ Along step C s as := by
  induction as generalizing s with
  | nil => exact iff_of_true ⟨s, rfl, hs⟩ Along.nil
  | cons a as ih =>
    obtain ⟨s₁, hs₁⟩ := henabled s a hs
    have hrun : ∀ s', run step s (a :: as) = some s' ↔ run step s₁ as = some s' := by
      intro s'
      rw [run, hs₁, Option.bind_some]
    simp only [hrun]
    by_cases hP : P s₁
    · rw [ih hP]
      constructor
      · exact Along.cons ((hstep s a s₁ hs hs₁).mp hP) hs₁
      · intro h
        exact h.2 s₁ hs₁
    · refine iff_of_false ?_ fun h => hP ((hstep s a s₁ hs hs₁).mpr h.1)
      rintro ⟨s', hs', hP'⟩
      cases as with
      | nil =>
        obtain rfl := Option.some.inj hs'
        exact hP hP'
      | cons b as =>
        obtain ⟨s₂, hs₂, -⟩ := run_cons_eq_some.mp hs'
        rw [hstuck s₁ b hP] at hs₂
        cases hs₂

/-- What every step preserves holds in every reachable state. -/
theorem reachable_invariant {init s : σ} (hinit : P init)
    (hstep : ∀ s a s', P s → step s a = some s' → P s') (h : Reachable step init s) : P s := by
  obtain ⟨as, hrun⟩ := h
  induction as generalizing init with
  | nil =>
    obtain rfl := Option.some.inj hrun
    exact hinit
  | cons a as ih =>
    obtain ⟨s₁, hs₁, hrun⟩ := run_cons_eq_some.mp hrun
    exact ih (hstep init a s₁ hinit hs₁) hrun

/-! ## Terminating systems -/

/-- No action is enabled. -/
def Final (step : σ → α → Option σ) (s : σ) : Prop := ∀ a, step s a = none

variable {work : σ → ℕ}

/-- Where each step does some of the work that is left, a run is no longer than the work at its start. -/
theorem run_length_le (hstep : ∀ s a s', P s → step s a = some s' → P s' ∧ work s' < work s)
    {s s' : σ} {as : List α} (hs : P s) (hrun : run step s as = some s') : as.length ≤ work s := by
  induction as generalizing s with
  | nil => exact Nat.zero_le _
  | cons a as ih =>
    obtain ⟨s₁, hs₁, hrun⟩ := run_cons_eq_some.mp hrun
    obtain ⟨hP, hlt⟩ := hstep s a s₁ hs hs₁
    exact lt_of_le_of_lt (ih hP hrun) hlt

/-- Then every state leads to a final one. -/
theorem exists_final (hstep : ∀ s a s', P s → step s a = some s' → P s' ∧ work s' < work s) {s : σ}
    (hs : P s) : ∃ as s', run step s as = some s' ∧ Final step s' := by
  induction hn : work s using Nat.strong_induction_on generalizing s with
  | _ n ih =>
    by_cases hfinal : Final step s
    · exact ⟨[], s, rfl, hfinal⟩
    · obtain ⟨a, ha⟩ := not_forall.mp hfinal
      obtain ⟨s₁, hs₁⟩ := Option.ne_none_iff_exists'.mp ha
      obtain ⟨hP, hlt⟩ := hstep s a s₁ hs hs₁
      obtain ⟨as, s', hrun, hs'⟩ := ih (work s₁) (hn ▸ hlt) hP rfl
      exact ⟨a :: as, s', run_cons_eq_some.mpr ⟨s₁, hs₁, hrun⟩, hs'⟩

end Lts
