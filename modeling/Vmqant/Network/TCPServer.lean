import Vmqant.Common.Counts
import Vmqant.Common.Lts

/-!
# The TCP server and its shutdown

Reference: `network/tcp_server.go`, lines 41-114.

`Start` spawns the goroutine of `run`, which accepts connections and spawns a goroutine for each. `Close`
closes the listener and waits for two groups, which the goroutines enter by themselves: a goroutine that is
spawned and not running yet is in none. A connection is known by its agent.
-/

namespace Vmqant.Network

open Lts

/-- Where the goroutine of `run` is. -/
inductive RunPc (ρ : Type) where
  /-- Before `server.wgLn.Add(1)`. -/
  | spawned
  | accepting
  /-- `Accept` has returned a connection. -/
  | accepted (agent : ρ)
  | ended

/-- Where the goroutine of an agent is. -/
inductive AgentPc where
  | idle
  /-- Before `server.wgConns.Add(1)`. -/
  | spawned
  | running
  /-- `Run` has returned, before `tcpConn.Close()`. -/
  | returned
  /-- Before `agent.OnClose()`. -/
  | closed
  /-- `OnClose` has returned, before `server.wgConns.Done()`. -/
  | cleaned
  | ended

/-- Where a call of `Close` is. -/
inductive ClosePc where
  | idle
  /-- Before `server.wgLn.Wait()`. -/
  | closing
  /-- Before `server.wgConns.Wait()`. -/
  | waiting
  | returned

/-- A server with agents `ρ` and calls `δ` of `Close`. -/
structure TCPServer (ρ δ : Type) where
  /-- The listener is not closed. -/
  listening : Bool
  wgLn : ℤ
  wgConns : ℤ
  loop : RunPc ρ
  agent : ρ → AgentPc
  close : δ → ClosePc

inductive RunAct (ρ : Type) where
  | add
  /-- `Accept` returns a connection for the agent. -/
  | accept (agent : ρ)
  /-- `Accept` fails for a while. -/
  | temporary
  /-- `Accept` fails for good, and the deferred `Done` is executed. -/
  | fail
  /-- `NewAgent`, and the goroutine. -/
  | spawn

inductive Act (ρ δ : Type) where
  | run (a : RunAct ρ)
  /-- The next step of the goroutine of the agent. -/
  | agent (a : ρ)
  /-- The next step of a call of `Close`. -/
  | close (d : δ)

variable {ρ δ : Type}

namespace TCPServer

/-- After `Start`. -/
def start : TCPServer ρ δ where
  listening := true
  wgLn := 0
  wgConns := 0
  loop := .spawned
  agent := fun _ => .idle
  close := fun _ => .idle

variable [DecidableEq ρ] [DecidableEq δ]

def setAgent (s : TCPServer ρ δ) (a : ρ) (pc : AgentPc) : TCPServer ρ δ :=
  { s with agent := Function.update s.agent a pc }

def setClose (s : TCPServer ρ δ) (d : δ) (pc : ClosePc) : TCPServer ρ δ :=
  { s with close := Function.update s.close d pc }

/-- `run`. A closed listener accepts nothing. -/
def runStep (s : TCPServer ρ δ) : RunPc ρ → RunAct ρ → Option (TCPServer ρ δ)
  | .spawned, .add => some { s with loop := .accepting, wgLn := s.wgLn + 1 }
  | .accepting, .accept a =>
    match s.listening, s.agent a with
    | true, .idle => some { s with loop := .accepted a }
    | _, _ => none
  | .accepting, .temporary => some s
  | .accepting, .fail => some { s with loop := .ended, wgLn := s.wgLn - 1 }
  | .accepted a, .spawn => some { s.setAgent a .spawned with loop := .accepting }
  | _, _ => none

/-- The goroutine of the agent `a`. -/
def agentStep (s : TCPServer ρ δ) (a : ρ) : AgentPc → Option (TCPServer ρ δ)
  | .spawned => some { s.setAgent a .running with wgConns := s.wgConns + 1 }
  | .running => some (s.setAgent a .returned)
  | .returned => some (s.setAgent a .closed)
  | .closed => some (s.setAgent a .cleaned)
  | .cleaned => some { s.setAgent a .ended with wgConns := s.wgConns - 1 }
  | .idle | .ended => none

/-- `Close`. -/
def closeStep (s : TCPServer ρ δ) (d : δ) : ClosePc → Option (TCPServer ρ δ)
  | .idle => some { s.setClose d .closing with listening := false }
  | .closing => if s.wgLn = 0 then some (s.setClose d .waiting) else none
  | .waiting => if s.wgConns = 0 then some (s.setClose d .returned) else none
  | .returned => none

def step (s : TCPServer ρ δ) : Act ρ δ → Option (TCPServer ρ δ)
  | .run a => runStep s s.loop a
  | .agent a => agentStep s a (s.agent a)
  | .close d => closeStep s d (s.close d)

end TCPServer

/-! ## The condition and the invariant -/

/-- The goroutine of `run` is counted by `wgLn`. -/
def RunPc.Counted : RunPc ρ → Prop
  | .accepting | .accepted _ => True
  | .spawned | .ended => False

/-- The goroutine is counted by `wgConns`. -/
def AgentPc.Counted : AgentPc → Prop
  | .running | .returned | .closed | .cleaned => True
  | .idle | .spawned | .ended => False

namespace TCPServer

/-- No goroutine of an agent is running or still to start. -/
def NoAgents (s : TCPServer ρ δ) : Prop := ∀ a, s.agent a = .idle ∨ s.agent a = .ended

/-- When a wait of `Close` is over, no goroutine of its group is still before its `Add`. -/
def Entered (s : TCPServer ρ δ) : Act ρ δ → Prop
  | .close d =>
    (s.close d = .closing → s.loop ≠ .spawned) ∧ (s.close d = .waiting → ∀ a, s.agent a ≠ .spawned)
  | _ => True

/-- The invariant of a run in which the goroutines enter their groups in time. -/
structure Inv (s : TCPServer ρ δ) : Prop where
  wgLn : (s.wgLn = 0 ∧ ¬ s.loop.Counted) ∨ (s.wgLn = 1 ∧ s.loop.Counted)
  wgConns : ∃ n : ℕ, s.wgConns = n ∧ Counts AgentPc.Counted s.agent n
  /-- An accepted connection has no goroutine yet. -/
  accepted : ∀ a, s.loop = .accepted a → s.agent a = .idle
  waiting : ∀ d, s.close d = .waiting → s.loop = .ended
  returned : ∀ d, s.close d = .returned → s.loop = .ended ∧ s.NoAgents

theorem inv_start : Inv (start : TCPServer ρ δ) where
  wgLn := .inl ⟨rfl, id⟩
  wgConns := ⟨0, rfl, Counts.zero_iff.mpr fun _ => id⟩
  accepted a h := by cases h
  waiting d h := by cases h
  returned d h := by cases h

namespace Inv

variable {s s' : TCPServer ρ δ}

/-- The goroutine of `run` moves on: it has not ended, and so no call of `Close` waits for agents. -/
theorem setRun (hs : Inv s) {pc : RunPc ρ} {wgLn : ℤ} (hrun : s.loop ≠ .ended)
    (hwgLn : (wgLn = 0 ∧ ¬ pc.Counted) ∨ (wgLn = 1 ∧ pc.Counted))
    (haccepted : ∀ a, pc = .accepted a → s.agent a = .idle) :
    Inv { s with loop := pc, wgLn := wgLn } where
  wgLn := hwgLn
  wgConns := hs.wgConns
  accepted := haccepted
  waiting d h := absurd (hs.waiting d h) hrun
  returned d h := absurd (hs.returned d h).1 hrun

/-- A call of `Close` moves on. -/
theorem setClose [DecidableEq δ] (hs : Inv s) {d : δ} {pc : ClosePc} {listening : Bool}
    (hwaiting : pc = .waiting → s.loop = .ended) (hreturned : pc = .returned → s.loop = .ended ∧ s.NoAgents) :
    Inv { s.setClose d pc with listening := listening } where
  wgLn := hs.wgLn
  wgConns := hs.wgConns
  accepted := hs.accepted
  waiting e h := by
    change Function.update s.close d pc e = _ at h
    rw [Function.update_apply] at h
    split at h
    · exact hwaiting h
    · exact hs.waiting e h
  returned e h := by
    change Function.update s.close d pc e = _ at h
    rw [Function.update_apply] at h
    split at h
    · exact hreturned h
    · exact hs.returned e h

theorem closeStep [DecidableEq δ] (hs : Inv s) {d : δ} (hentered : s.Entered (.close d))
    (h : closeStep s d (s.close d) = some s') : Inv s' := by
  unfold TCPServer.closeStep at h
  split at h
  · obtain rfl := Option.some.inj h
    exact hs.setClose (by simp) (by simp)
  · next hpc =>
    split at h
    · next hzero =>
      obtain rfl := Option.some.inj h
      refine hs.setClose (fun _ => ?_) (by simp)
      -- the group is empty, and the goroutine has entered it before
      have hcounted : ¬ s.loop.Counted := by
        rcases hs.wgLn with ⟨-, h⟩ | ⟨h, -⟩
        · exact h
        · rw [hzero] at h
          cases h
      cases hrun : s.loop with
      | spawned => exact absurd hrun (hentered.1 hpc)
      | ended => rfl
      | _ =>
        rw [hrun] at hcounted
        exact absurd trivial hcounted
    · cases h
  · next hpc =>
    split at h
    · next hzero =>
      obtain rfl := Option.some.inj h
      refine hs.setClose (by simp) fun _ => ⟨hs.waiting d hpc, fun a => ?_⟩
      obtain ⟨n, hn, hcount⟩ := hs.wgConns
      obtain rfl : n = 0 := by
        rw [hzero] at hn
        exact_mod_cast hn.symm
      have hcounted : ¬ (s.agent a).Counted := Counts.zero_iff.mp hcount a
      cases hagent : s.agent a with
      | idle => exact .inl rfl
      | spawned => exact absurd hagent (hentered.2 hpc a)
      | ended => exact .inr rfl
      | _ =>
        rw [hagent] at hcounted
        exact absurd trivial hcounted
    · cases h
  · cases h

variable [DecidableEq ρ]

/-- A goroutine that has entered its group moves on. -/
theorem setAgent (hs : Inv s) {a : ρ} {pc : AgentPc} {wgConns : ℤ} (hne : s.agent a ≠ .idle)
    (hbusy : s.agent a ≠ .ended)
    (hcount : ∃ n : ℕ, wgConns = n ∧ Counts AgentPc.Counted (Function.update s.agent a pc) n) :
    Inv { s.setAgent a pc with wgConns := wgConns } where
  wgLn := hs.wgLn
  wgConns := hcount
  accepted b h := by
    have hidle : s.agent b = .idle := hs.accepted b h
    have hb : b ≠ a := by
      rintro rfl
      exact hne hidle
    exact (Function.update_of_ne hb _ _).trans hidle
  waiting := hs.waiting
  returned d h := by
    rcases (hs.returned d h).2 a with hidle | hended
    · exact absurd hidle hne
    · exact absurd hended hbusy

theorem agentStep (hs : Inv s) {a : ρ} (h : agentStep s a (s.agent a) = some s') : Inv s' := by
  obtain ⟨n, hn, hcount⟩ := hs.wgConns
  -- between its `Add` and its `Done` a goroutine stays counted
  have hstay : ∀ pc : AgentPc, pc.Counted → (s.agent a).Counted → Inv (s.setAgent a pc) :=
    fun pc hpc hfrom => by
      refine hs.setAgent ?_ ?_ ⟨n, hn, hcount.stay (iff_of_true hpc hfrom)⟩
      · intro hidle
        rw [hidle] at hfrom
        exact hfrom
      · intro hended
        rw [hended] at hfrom
        exact hfrom
  unfold TCPServer.agentStep at h
  generalize hpc : s.agent a = pc at h hstay
  cases pc with
  | idle => cases h
  | spawned =>
    obtain rfl := Option.some.inj h
    refine hs.setAgent (by simp [hpc]) (by simp [hpc]) ⟨n + 1, by simp [hn], ?_⟩
    refine hcount.enter ?_ trivial
    rw [hpc]
    exact id
  | running =>
    obtain rfl := Option.some.inj h
    exact hstay _ trivial trivial
  | returned =>
    obtain rfl := Option.some.inj h
    exact hstay _ trivial trivial
  | closed =>
    obtain rfl := Option.some.inj h
    exact hstay _ trivial trivial
  | cleaned =>
    obtain rfl := Option.some.inj h
    have hcounted : (s.agent a).Counted := by
      rw [hpc]
      trivial
    have hpos : 0 < n := by
      refine Nat.pos_of_ne_zero ?_
      rintro rfl
      exact Counts.zero_iff.mp hcount a hcounted
    refine hs.setAgent (by simp [hpc]) (by simp [hpc]) ⟨n - 1, ?_, hcount.leave hcounted id⟩
    rw [hn, Nat.cast_sub hpos, Nat.cast_one]
  | ended => cases h

/-- The accepted connection gets its goroutine. -/
theorem spawn (hs : Inv s) {a : ρ} (hrun : s.loop = .accepted a) :
    Inv { s.setAgent a .spawned with loop := .accepting } := by
  obtain ⟨n, hn, hcount⟩ := hs.wgConns
  have hwgLn : s.wgLn = 1 := by
    rcases hs.wgLn with ⟨-, h⟩ | ⟨h, -⟩
    · rw [hrun] at h
      exact absurd trivial h
    · exact h
  have hended : s.loop ≠ .ended := by
    rw [hrun]
    exact nofun
  refine
    { wgLn := .inr ⟨hwgLn, trivial⟩, wgConns := ⟨n, hn, hcount.stay ?_⟩, accepted := fun b h => by cases h
      waiting := fun d h => absurd (hs.waiting d h) hended
      returned := fun d h => absurd (hs.returned d h).1 hended }
  rw [hs.accepted a hrun]
  exact Iff.rfl

theorem runStep (hs : Inv s) {a : RunAct ρ} (h : runStep s s.loop a = some s') : Inv s' := by
  unfold TCPServer.runStep at h
  generalize hrun : s.loop = pc at h
  have hwgLn := hs.wgLn
  rw [hrun] at hwgLn
  split at h
  · obtain rfl := Option.some.inj h
    have hzero : s.wgLn = 0 := (hwgLn.resolve_right fun h => h.2).1
    exact hs.setRun (by simp [hrun]) (.inr ⟨by simp [hzero], trivial⟩) (by simp)
  · split at h
    · next _ _ hidle =>
      obtain rfl := Option.some.inj h
      have hone : s.wgLn = 1 := (hwgLn.resolve_left fun h => h.2 trivial).1
      refine hs.setRun (by simp [hrun]) (.inr ⟨hone, trivial⟩) ?_
      rintro b hb
      cases hb
      exact hidle
    · cases h
  · obtain rfl := Option.some.inj h
    exact hs
  · obtain rfl := Option.some.inj h
    have hone : s.wgLn = 1 := (hwgLn.resolve_left fun h => h.2 trivial).1
    exact hs.setRun (by simp [hrun]) (.inl ⟨by simp [hone], id⟩) (by simp)
  · obtain rfl := Option.some.inj h
    exact hs.spawn hrun
  · cases h

variable [DecidableEq δ]

theorem step {a : Act ρ δ} (hs : Inv s) (hentered : s.Entered a) (h : step s a = some s') : Inv s' := by
  cases a with
  | run a => exact hs.runStep h
  | agent a => exact hs.agentStep h
  | close d => exact hs.closeStep hentered h

end Inv

/-! ## Every run -/

/-- **Complete shutdown**: in every run whose waits end only after the goroutines have entered their groups,
once a call of `Close` has returned, the accept loop has ended and no agent is running or still to start. -/
theorem close_complete [DecidableEq ρ] [DecidableEq δ] (as : List (Act ρ δ)) (s : TCPServer ρ δ)
    (hrun : run step start as = some s) (hentered : Along step Entered start as) (d : δ)
    (hreturned : s.close d = .returned) : s.loop = .ended ∧ s.NoAgents :=
  (run_invariant (fun _ _ _ hs hC h => Inv.step hs hC h) inv_start hentered hrun).returned d hreturned

/-- A connection is served to its end, and the server is closed. -/
def servedRun : List (Act Unit Unit) :=
  [.run .add, .run (.accept ()), .run .spawn, .agent (), .close (), .run .fail, .close (), .agent (),
    .agent (), .agent (), .agent (), .close ()]

theorem close_complete_servedRun :
    ∃ s, run step start servedRun = some s ∧ s.close () = .returned ∧ s.loop = .ended ∧ s.NoAgents := by
  have hentered : Along step Entered start servedRun := by
    refine .cons trivial rfl <| .cons trivial rfl <| .cons trivial rfl <| .cons trivial rfl <|
      .cons ⟨nofun, nofun⟩ rfl <| .cons trivial rfl <| .cons ⟨fun _ => nofun, nofun⟩ rfl <|
      .cons trivial rfl <| .cons trivial rfl <| .cons trivial rfl <| .cons trivial rfl <|
      .cons ⟨nofun, fun _ a => ?_⟩ rfl .nil
    cases a
    exact nofun
  exact ⟨_, rfl, rfl, close_complete servedRun _ rfl hentered () rfl⟩

/-- The server is closed before the goroutines run: that of an accepted connection, and that of `run`. -/
def earlyRun : List (Act Unit Unit) :=
  [.run .add, .run (.accept ()), .run .spawn, .close (), .run .fail, .close (), .close ()]

/-- `Close` returns, and the agent is still to start; or the accept loop is. -/
theorem not_complete_earlyRun :
    (∃ s, run step start earlyRun = some s ∧ s.close () = .returned ∧ s.agent () = .spawned) ∧
    ∃ s : TCPServer Unit Unit, run step start [.close (), .close (), .close ()] = some s ∧
      s.close () = .returned ∧ s.loop = .spawned :=
  ⟨⟨_, rfl, rfl, rfl⟩, _, rfl, rfl, rfl⟩

end TCPServer

end Vmqant.Network
