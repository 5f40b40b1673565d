import Vmqant.Service.Service

/-!
# A stopped service stays deregistered

The goroutine of `run` is told to leave and not waited for. A registration that it is in, or that it
begins because `select` takes a tick, can reach the registry after the deregistration, and then the node
stays. It also stays where an error makes `Run` return without the deregistration. `Orderly` rules these
steps out, and is exact.
-/

namespace Vmqant.Service

open Lts Registry

variable {o : Options} {interval : ℤ} {s s' : State}

/-! ## The condition -/

/-- `Run` is through with the registry. -/
def MainPc.Past : MainPc → Prop
  | .unmark | .afterStop | .returned => True
  | _ => False

/-- The action is an error that makes `ServiceRegister` return. -/
def RegisterPc.fails (o : Options) : RegisterPc → RegisterAct → Bool
  | .extract, .extract iface => (Service.extract o.host iface).isNone
  | .register _ _, .register ok => !ok
  | _, _ => false

/-- The action is an error that makes `Run` return before the deregistration. -/
def MainPc.fails (o : Options) : MainPc → MainAct → Bool
  | .beforeStart, .hooks ok => !ok
  | .start r, .register a => r.fails o a
  | .afterStart, .hooks ok => !ok
  | .extract, .extract iface => (Service.extract o.host iface).isNone
  | .deregister, .deregister ok => !ok
  | _, _ => false

/-- The node is in the registry. -/
def State.Present (o : Options) (s : State) : Prop := s.registry o.nodeId ≠ none

/-- An error that makes `Run` return does not find the node in the registry, and the goroutine does not
register the node when `Run` is through with the registry. -/
def Orderly (o : Options) (s : State) : Act → Prop
  | .main a => s.main.fails o a = true → ¬ s.Present o
  | .loop (.register (.register true)) => ¬ s.main.Past
  | _ => True

/-! ## What the steps do -/

/-- The node that is to be registered is the node of the server. -/
def RegisterPc.Own (o : Options) : RegisterPc → Prop
  | .read node | .register node _ => node.id = o.nodeId
  | _ => True

def LoopPc.Own (o : Options) : LoopPc → Prop
  | .register r => r.Own o
  | _ => True

/-- `ServiceRegister` leaves alone where the goroutines are. -/
theorem registerStep_frame {r r' : RegisterPc} {a : RegisterAct}
    (h : registerStep o s r a = some (r', s')) : s'.main = s.main ∧ s'.loop = s.loop := by
  unfold registerStep at h
  split at h
  · split at h <;> cases h <;> exact ⟨rfl, rfl⟩
  all_goals
    cases h
    try exact ⟨rfl, rfl⟩

/-- `ServiceRegister` changes the registry only where it registers the node of the server. -/
theorem registerStep_registry {r r' : RegisterPc} {a : RegisterAct}
    (h : registerStep o s r a = some (r', s')) (hr : r.Own o) :
    r'.Own o ∧ (s'.registry = s.registry ∧ a ≠ .register true ∨ a = .register true ∧ s'.Present o) := by
  unfold registerStep at h
  split at h
  · split at h
    · cases h
      exact ⟨trivial, .inl ⟨rfl, by simp⟩⟩
    · cases h
      exact ⟨rfl, .inl ⟨rfl, by simp⟩⟩
  · cases h
    exact ⟨hr, .inl ⟨rfl, by simp⟩⟩
  · next node registered =>
    cases h
    refine ⟨?_, .inr ⟨rfl, ?_⟩⟩
    · cases registered <;> exact trivial
    · change Function.update s.registry node.id (some node) o.nodeId ≠ none
      rw [show o.nodeId = node.id from hr.symm, Function.update_self]
      exact Option.some_ne_none node
  · cases h
    exact ⟨trivial, .inl ⟨rfl, by simp⟩⟩
  · cases h
    exact ⟨trivial, .inl ⟨rfl, by simp⟩⟩
  · cases h

/-- `ServiceRegister` returns an error exactly where it fails, and then the registry is as before. -/
theorem registerStep_fails {r r' : RegisterPc} {a : RegisterAct}
    (h : registerStep o s r a = some (r', s')) :
    (r' = .returned false ∧ r.fails o a = true ∧ s' = s) ∨
      (r' ≠ .returned false ∧ r.fails o a = false) := by
  unfold registerStep at h
  split at h
  · split at h
    · next hextract =>
      cases h
      exact .inl ⟨rfl, by rw [RegisterPc.fails, hextract]; rfl, rfl⟩
    · next hextract =>
      cases h
      exact .inr ⟨by simp, by rw [RegisterPc.fails, hextract]; rfl⟩
  · cases h
    exact .inr ⟨by simp, rfl⟩
  · next node registered =>
    cases h
    refine .inr ⟨?_, rfl⟩
    cases registered <;> simp
  · cases h
    exact .inl ⟨rfl, rfl, rfl⟩
  · cases h
    exact .inr ⟨by simp, rfl⟩
  · cases h

/-- The effect of a step of `Run` from `pc`: it is not through with the registry after it, or it returns
with an error, or deregisters the node, or it was through before. -/
inductive MainEffect (o : Options) (s : State) (pc : MainPc) (s' : State) (a : MainAct) : Prop where
  | before (hfrom : ¬ pc.Past) (hpast : ¬ s'.main.Past) (hok : pc.fails o a = false)
  | fail (hpast : s'.main.Past) (hfails : pc.fails o a = true) (hreg : s'.registry = s.registry)
  | deregister (hfrom : ¬ pc.Past) (hok : pc.fails o a = false) (hreg : ¬ s'.Present o)
  | after (hfrom : pc.Past) (hpast : s'.main.Past) (hok : pc.fails o a = false)
      (hreg : s'.registry = s.registry)

theorem mainStep_effect {pc : MainPc} {a : MainAct} (h : mainStep o s pc a = some s') :
    MainEffect o s pc s' a ∧ (s'.loop = s.loop ∨ s'.loop = .begin) := by
  unfold mainStep at h
  split at h
  · next ok =>
    cases h
    cases ok with
    | true => exact ⟨.before id id rfl, .inl rfl⟩
    | false => exact ⟨.fail trivial rfl rfl, .inl rfl⟩
  · next r a =>
    obtain ⟨⟨r', s₁⟩, hr, rfl⟩ := Option.map_eq_some_iff.mp h
    have hloop := (registerStep_frame hr).2
    rcases registerStep_fails hr with ⟨rfl, hfails, rfl⟩ | ⟨hne, hok⟩
    · exact ⟨.fail trivial hfails rfl, .inl rfl⟩
    · cases r' with
      | returned ok =>
        cases ok with
        | true => exact ⟨.before id id hok, .inl hloop⟩
        | false => exact absurd rfl hne
      | _ => exact ⟨.before id id hok, .inl hloop⟩
  · next ok =>
    cases h
    cases ok with
    | true => exact ⟨.before id id rfl, .inr rfl⟩
    | false => exact ⟨.fail trivial rfl rfl, .inl rfl⟩
  · split at h
    · cases h
      exact ⟨.before id id rfl, .inl rfl⟩
    · cases h
  · cases h
    exact ⟨.before id id rfl, .inl rfl⟩
  · cases h
    exact ⟨.before id id rfl, .inl rfl⟩
  · next iface =>
    split at h
    · next hextract =>
      cases h
      refine ⟨.fail trivial ?_ rfl, .inl rfl⟩
      rw [MainPc.fails, hextract]
      rfl
    · next hextract =>
      cases h
      refine ⟨.before id id ?_, .inl rfl⟩
      rw [MainPc.fails, hextract]
      rfl
  · cases h
    refine ⟨.deregister id rfl fun hpresent => hpresent ?_, .inl rfl⟩
    exact Function.update_self o.nodeId none s.registry
  · cases h
    exact ⟨.fail trivial rfl rfl, .inl rfl⟩
  · cases h
    exact ⟨.after trivial trivial rfl rfl, .inl rfl⟩
  · cases h
    exact ⟨.after trivial trivial rfl rfl, .inl rfl⟩
  · cases h

/-- A step of the goroutine changes the registry only where it registers the node. -/
theorem loopStep_effect {pc : LoopPc} {a : LoopAct} (h : loopStep o interval s pc a = some s')
    (hpc : pc.Own o) :
    s'.main = s.main ∧ s'.loop.Own o ∧
      (s'.registry = s.registry ∧ a ≠ .register (.register true) ∨
        a = .register (.register true) ∧ s'.Present o) := by
  unfold loopStep at h
  split at h
  · cases h
    refine ⟨rfl, ?_, .inl ⟨rfl, by simp⟩⟩
    dsimp only
    split <;> exact trivial
  · cases h
    exact ⟨rfl, trivial, .inl ⟨rfl, by simp⟩⟩
  · split at h
    · cases h
      exact ⟨rfl, trivial, .inl ⟨rfl, by simp⟩⟩
    · cases h
  · next r a =>
    obtain ⟨⟨r', s₁⟩, hr, rfl⟩ := Option.map_eq_some_iff.mp h
    have hmain := (registerStep_frame hr).1
    obtain ⟨hown, hreg⟩ := registerStep_registry hr hpc
    have hreg' : s₁.registry = s.registry ∧ LoopAct.register a ≠ .register (.register true) ∨
        LoopAct.register a = .register (.register true) ∧ s₁.Present o := by
      simpa using hreg
    cases r' with
    | returned ok => exact ⟨hmain, trivial, hreg'⟩
    | _ => exact ⟨hmain, hown, hreg'⟩
  · cases h

/-! ## Runs -/

/-- The node is not in the registry when `Run` is through with it. -/
structure Inv (o : Options) (s : State) : Prop where
  own : s.loop.Own o
  past : s.main.Past → ¬ s.Present o

/-- `Run` is through with the registry, and the node is still there. -/
structure Stranded (o : Options) (s : State) : Prop where
  own : s.loop.Own o
  past : s.main.Past
  present : s.Present o

theorem inv_init (registered : Bool) (registry : String → Option Node) :
    Inv o (State.init registered registry) := ⟨trivial, False.elim⟩

theorem own_of_loop (hs : s.loop.Own o) (h : s'.loop = s.loop ∨ s'.loop = .begin) :
    s'.loop.Own o := by
  rcases h with h | h
  · rw [h]
    exact hs
  · rw [h]
    exact trivial

theorem present_congr (h : s'.registry = s.registry) : s'.Present o ↔ s.Present o := by
  unfold State.Present
  rw [h]

theorem Inv.step {a : Act} (hs : Inv o s) (ha : Orderly o s a)
    (h : Service.step o interval s a = some s') : Inv o s' := by
  cases a with
  | main a =>
    obtain ⟨heffect, hloop⟩ := mainStep_effect h
    refine ⟨own_of_loop hs.own hloop, fun hpast' => ?_⟩
    cases heffect with
    | before hfrom hpast hok => exact absurd hpast' hpast
    | fail hpast hfails hreg =>
      rw [present_congr hreg]
      exact ha hfails
    | deregister hfrom hok hreg => exact hreg
    | after hfrom hpast hok hreg =>
      rw [present_congr hreg]
      exact hs.past hfrom
  | loop a =>
    obtain ⟨hmain, hown, hreg⟩ := loopStep_effect h hs.own
    refine ⟨hown, fun hpast' => ?_⟩
    rw [hmain] at hpast'
    rcases hreg with ⟨hreg, -⟩ | ⟨rfl, -⟩
    · rw [present_congr hreg]
      exact hs.past hpast'
    · exact absurd hpast' ha
  | cancel =>
    obtain rfl := Option.some.inj h
    exact ⟨hs.own, hs.past⟩

/-- A step that is not orderly strands the node. -/
theorem Inv.stranded {a : Act} (hs : Inv o s) (ha : ¬ Orderly o s a)
    (h : Service.step o interval s a = some s') : Stranded o s' := by
  cases a with
  | main a =>
    obtain ⟨hfails, hpresent⟩ : s.main.fails o a = true ∧ s.Present o := by
      simpa [Orderly] using ha
    obtain ⟨heffect, hloop⟩ := mainStep_effect h
    cases heffect with
    | fail hpast _ hreg =>
      exact ⟨own_of_loop hs.own hloop, hpast, (present_congr hreg).mpr hpresent⟩
    | before _ _ hok | deregister _ hok _ | after _ _ hok _ =>
      rw [hok] at hfails
      cases hfails
  | loop a =>
    obtain ⟨hmain, hown, hreg⟩ := loopStep_effect h hs.own
    rcases hreg with ⟨-, hne⟩ | ⟨rfl, hpresent⟩
    · refine absurd ?_ ha
      unfold Orderly
      split
      · next heq => cases heq
      · next heq => cases heq; exact absurd rfl hne
      · trivial
    · have hpast : s.main.Past := not_not.mp ha
      exact ⟨hown, hmain ▸ hpast, hpresent⟩
  | cancel => exact absurd trivial ha

theorem Stranded.step {a : Act} (hs : Stranded o s) (h : step o interval s a = some s') :
    Stranded o s' := by
  cases a with
  | main a =>
    obtain ⟨heffect, hloop⟩ := mainStep_effect h
    have hown := own_of_loop hs.own hloop
    cases heffect with
    | before hfrom _ _ | deregister hfrom _ _ => exact absurd hs.past hfrom
    | fail hpast _ hreg | after _ hpast _ hreg =>
      exact ⟨hown, hpast, (present_congr hreg).mpr hs.present⟩
  | loop a =>
    obtain ⟨hmain, hown, hreg⟩ := loopStep_effect h hs.own
    refine ⟨hown, hmain ▸ hs.past, ?_⟩
    rcases hreg with ⟨hreg, -⟩ | ⟨-, hpresent⟩
    · exact (present_congr hreg).mpr hs.present
    · exact hpresent
  | cancel =>
    obtain rfl := Option.some.inj h
    exact ⟨hs.own, hs.past, hs.present⟩

/-- **A stopped service is deregistered** exactly in the orderly runs: when `Run` has returned and its
goroutine is finished, the node is not in the registry if and only if no registration came after the
deregistration and no error made `Run` return with the node in the registry. -/
theorem finished_deregistered_iff (o : Options) (interval : ℤ) (registered : Bool)
    (registry : String → Option Node) (as : List Act) (s : State)
    (hrun : run (step o interval) (.init registered registry) as = some s) (hfin : s.Finished) :
    ¬ s.Present o ↔ Along (step o interval) (Orderly o) (.init registered registry) as := by
  have hpast : s.main.Past := by
    rw [hfin.1]
    trivial
  rcases run_along_or (fun _ _ _ hs ha h => hs.step ha h) (fun _ _ _ hs ha h => hs.stranded ha h)
      (fun _ _ _ hs h => hs.step h) (inv_init registered registry) hrun with
    ⟨halong, hinv⟩ | ⟨hnot, hstranded⟩
  · exact iff_of_true (hinv.past hpast) halong
  · exact iff_of_false (not_not.mpr hstranded.present) hnot

/-- A server with an explicit address. -/
def sampleOptions : Options := { name := "gate", id := "1", address := "127.0.0.1:3563" }

/-- The goroutine leaves before the deregistration. -/
def orderlyRun : List Act :=
  [.main (.hooks true), .main (.register (.extract none)), .main (.register .read),
    .main (.register (.register true)), .main (.register .mark), .main (.hooks true), .loop .begin,
    .loop .tick, .loop (.register (.extract none)), .loop (.register .read),
    .loop (.register (.register true)), .cancel, .main .done, .main .close, .loop .exit,
    .main (.hooks true), .main (.extract none), .main (.deregister true), .main .unmark,
    .main (.hooks true)]

theorem finished_deregistered_orderlyRun :
    ∃ s, run (step sampleOptions 1) (.init false fun _ => none) orderlyRun = some s ∧ s.Finished ∧
      ¬ s.Present sampleOptions := by
  have horderly : Along (step sampleOptions 1) (Orderly sampleOptions) (.init false fun _ => none)
      orderlyRun :=
    .cons nofun rfl <| .cons nofun rfl <| .cons nofun rfl <| .cons nofun rfl <| .cons nofun rfl <|
    .cons nofun rfl <| .cons trivial rfl <| .cons trivial rfl <| .cons trivial rfl <|
    .cons trivial rfl <| .cons id rfl <| .cons trivial rfl <| .cons nofun rfl <| .cons nofun rfl <|
    .cons trivial rfl <| .cons nofun rfl <| .cons nofun rfl <| .cons nofun rfl <| .cons nofun rfl <|
    .cons nofun rfl .nil
  refine ⟨_, rfl, ⟨rfl, .inr rfl⟩, ?_⟩
  exact (finished_deregistered_iff sampleOptions 1 false (fun _ => none) orderlyRun _ rfl
    ⟨rfl, .inr rfl⟩).mpr horderly

/-- The goroutine is in a registration when `exit` is closed, and the registry gets it after the
deregistration. -/
def lateRun : List Act :=
  [.main (.hooks true), .main (.register (.extract none)), .main (.register .read),
    .main (.register (.register true)), .main (.register .mark), .main (.hooks true), .loop .begin,
    .loop .tick, .loop (.register (.extract none)), .loop (.register .read), .cancel, .main .done,
    .main .close, .main (.hooks true), .main (.extract none), .main (.deregister true), .main .unmark,
    .main (.hooks true), .loop (.register (.register true)), .loop .exit]

theorem present_lateRun :
    ∃ s, run (step sampleOptions 1) (.init false fun _ => none) lateRun = some s ∧ s.Finished ∧
      s.Present sampleOptions :=
  ⟨_, rfl, ⟨rfl, .inr rfl⟩, Option.some_ne_none _⟩

end Vmqant.Service
