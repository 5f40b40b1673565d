import Vmqant.Common.Lts

/-!
# A replica that is fed from a log

A primary map is written key by key, and each write goes into a log, from which a replica takes the writes
one by one and in order. The replica may be given up at any time, and loaded from the primary at any time, also
when writes that the primary has seen are still in the log. It gets those a second time then, and for a while
it can hold an old value again, but the last write to a key decides: `Coherent.of_reachable` says that what is
left in the log always brings the replica up to date.
-/

namespace Replica

variable {κ α : Type*} [DecidableEq κ]

/-! ## Replaying a log -/

/-- The writes of the log, the oldest first. -/
def replay (log : List (κ × α)) (f : κ → α) : κ → α := log.foldl (fun f w => Function.update f w.1 w.2) f

variable {log log' : List (κ × α)} {f g : κ → α} {k : κ} {a : α} {w : κ × α}

theorem replay_nil (f : κ → α) : replay [] f = f := rfl

theorem replay_cons (w : κ × α) (log : List (κ × α)) (f : κ → α) :
    replay (w :: log) f = replay log (Function.update f w.1 w.2) := rfl

theorem replay_append (log log' : List (κ × α)) (f : κ → α) :
    replay (log ++ log') f = replay log' (replay log f) := List.foldl_append

theorem replay_apply_of_ne (h : ∀ w ∈ log, w.1 ≠ k) : replay log f k = f k := by
  induction log generalizing f with
  | nil => rfl
  | cons w log ih =>
    rw [replay_cons, ih fun w' hw' => h w' (List.mem_cons_of_mem _ hw')]
    exact Function.update_of_ne (Ne.symm (h w List.mem_cons_self)) _ _

/-- A key that the log writes, or that has the same value in both maps, has the same value afterwards. -/
theorem replay_congr (h : (∃ w ∈ log, w.1 = k) ∨ f k = g k) : replay log f k = replay log g k := by
  induction log generalizing f g with
  | nil => exact h.resolve_left fun ⟨w, hw, _⟩ => List.not_mem_nil hw
  | cons w log ih =>
    rw [replay_cons, replay_cons]
    apply ih
    by_cases hk : w.1 = k
    · subst hk
      rw [Function.update_self, Function.update_self]
      exact .inr rfl
    · rw [Function.update_of_ne (Ne.symm hk), Function.update_of_ne (Ne.symm hk)]
      refine h.imp_left fun ⟨w', hw', hkey⟩ => ⟨w', ?_, hkey⟩
      exact (List.mem_cons.mp hw').resolve_left fun heq => hk (heq ▸ hkey)

/-- Writes that are made a second time change nothing. -/
theorem replay_replay (log : List (κ × α)) (f : κ → α) : replay log (replay log f) = replay log f := by
  funext k
  by_cases hk : ∃ w ∈ log, w.1 = k
  · exact replay_congr (.inl hk)
  · exact replay_congr (.inr (replay_apply_of_ne fun w hw heq => hk ⟨w, hw, heq⟩))

/-! ## The system -/

structure State (κ α : Type*) where
  primary : κ → α
  /-- The writes that have not reached the replica. -/
  log : List (κ × α)
  replica : Option (κ → α)

inductive Act (κ α : Type*) where
  | write (k : κ) (a : α)
  /-- The oldest write of the log reaches the replica, which may be given up for it. -/
  | deliver (keep : Bool)
  | load
  | drop

def step (st : State κ α) : Act κ α → Option (State κ α)
  | .write k a => some { st with primary := Function.update st.primary k a, log := st.log ++ [(k, a)] }
  | .deliver keep =>
    match st.log with
    | [] => none
    | w :: log =>
      some { st with log, replica := if keep then st.replica.map (replay [w]) else none }
  | .load => some { st with replica := some st.primary }
  | .drop => some { st with replica := none }

/-- The primary is what its log made of it, and the log brings the replica up to date. -/
structure Coherent (st : State κ α) : Prop where
  logged : ∃ f, replay st.log f = st.primary
  caught_up : ∀ f, st.replica = some f → replay st.log f = st.primary

variable {st st' : State κ α} {act : Act κ α}

theorem Coherent.write (h : Coherent st) (k : κ) (a : α) :
    Coherent { st with primary := Function.update st.primary k a, log := st.log ++ [(k, a)] } where
  logged := by
    obtain ⟨f, hf⟩ := h.logged
    refine ⟨f, ?_⟩
    dsimp only
    rw [replay_append, hf]
    rfl
  caught_up f hf := by
    dsimp only
    rw [replay_append, h.caught_up f hf]
    rfl

theorem Coherent.deliver (h : Coherent st) {log : List (κ × α)} (hlog : st.log = w :: log) (keep : Bool) :
    Coherent { st with log, replica := if keep then st.replica.map (replay [w]) else none } where
  logged := by
    obtain ⟨f, hf⟩ := h.logged
    rw [hlog] at hf
    exact ⟨Function.update f w.1 w.2, hf⟩
  caught_up f hf := by
    dsimp only at hf ⊢
    cases keep with
    | false => cases hf
    | true =>
      obtain ⟨f₀, hf₀, rfl⟩ := Option.map_eq_some_iff.mp hf
      have hcaught := h.caught_up f₀ hf₀
      rw [hlog] at hcaught
      exact hcaught

/-- The writes that are still in the log are made on a primary that has seen them. -/
theorem Coherent.load (h : Coherent st) : Coherent { st with replica := some st.primary } where
  logged := h.logged
  caught_up f hf := by
    obtain rfl := Option.some.inj hf
    obtain ⟨f₀, hf₀⟩ := h.logged
    dsimp only
    rw [← hf₀, replay_replay]

theorem coherent_step (h : Coherent st) (hstep : step st act = some st') : Coherent st' := by
  cases act with
  | write k a =>
    obtain rfl := Option.some.inj hstep
    exact h.write k a
  | deliver keep =>
    unfold step at hstep
    dsimp only at hstep
    split at hstep
    · cases hstep
    · next w log hlog =>
      obtain rfl := Option.some.inj hstep
      exact h.deliver hlog keep
  | load =>
    obtain rfl := Option.some.inj hstep
    exact h.load
  | drop =>
    obtain rfl := Option.some.inj hstep
    exact ⟨h.logged, fun f hf => by cases hf⟩

/-- However the writes, the deliveries and the loads follow each other. -/
theorem Coherent.of_reachable (h : Coherent st) (hst' : Lts.Reachable step st st') : Coherent st' :=
  Lts.reachable_invariant h (fun _ _ _ hs hstep => coherent_step hs hstep) hst'

/-- When the log is empty the replica, if there is one, is the primary. -/
theorem Coherent.replica_eq (h : Coherent st) (hlog : st.log = []) (hf : st.replica = some f) :
    f = st.primary := by
  have hcaught := h.caught_up f hf
  rw [hlog] at hcaught
  exact hcaught

end Replica
