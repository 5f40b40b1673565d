import Vmqant.Gate.Handler

/-!
# Whether a user is connected

Reference: `gate/base/gate_handler.go`, lines 175-193; `gate/base/mqtt_agent.go`, lines 79-81 and 186-197.

`IsConnect` looks for an agent that is bound to the user, and asks the first one it meets whether it is
closed. An agent is marked by `OnClose` before `DisConnect` takes it off the map, so that at times there is a
closed agent beside an open one, and the order of the map decides. `isConnect_iff` says when it does not.
-/

namespace Vmqant.BaseGate

open Lts

/-- The handler, and the agents that `OnClose` has marked. -/
structure Marked (ρ σ : Type) where
  handler : Handler ρ σ
  isclose : ρ → Bool

inductive MarkAct (ρ : Type) where
  | call (op : Op ρ)
  /-- The first line of `OnClose`; the handler is told of it by a call of its own. -/
  | onClose (a : ρ)

variable {ρ σ : Type}

namespace Handler

/-- The agents in the map. -/
def registered (c : Handler ρ σ) : List ρ := c.sessions.entries.map Sigma.snd

/-- A registered agent has a session. -/
def HasSessions (c : Handler ρ σ) : Prop :=
  ∀ sessionid a, c.sessions.lookup sessionid = some a → (c.agents a).session.isSome

/-- The session of the agent is bound to the user. -/
def Bound (c : Handler ρ σ) (userid : String) (a : ρ) : Prop :=
  ∃ s, (c.agents a).session = some s ∧ s.userId = userid

instance (c : Handler ρ σ) (userid : String) (a : ρ) : Decidable (c.Bound userid a) :=
  decidable_of_iff ((c.agents a).session.any fun s => s.userId = userid) (by simp [Bound, Option.any_eq_true])

end Handler

namespace Marked

/-- The loop over the sessions: `isconnect` and `found`. `none` is the panic on a `nil` session. -/
def rangeSessions (m : Marked ρ σ) (userid : String) : List ρ → Option (Bool × Bool)
  | [] => some (false, false)
  | agent :: agents =>
    (m.handler.agents agent).session.bind fun session =>
      if session.userId = userid then some (!m.isclose agent, true) else rangeSessions m userid agents

/-- `IsConnect`; the sessions come in the given order. -/
def isConnect (m : Marked ρ σ) (order : List ρ) (userid : String) : Option (Bool × String) :=
  (m.rangeSessions userid order).map fun (isconnect, found) =>
    if !found then (false, s!"The gateway did not find the corresponding userId 【{userid}】")
    else (isconnect, "")

section Step

variable [DecidableEq ρ]

def init (agents : ρ → Agent) (store : σ) : Marked ρ σ := ⟨.newGateHandler agents store, fun _ => false⟩

def step (g : Gate σ) (m : Marked ρ σ) : MarkAct ρ → Option (Marked ρ σ)
  | .call op => (m.handler.step g op).map fun c => { m with handler := c }
  | .onClose a => some { m with isclose := Function.update m.isclose a true }

end Step

end Marked

/-! ## Registered agents have sessions -/

section HasSessions

variable {g : Gate σ} {c c' : Handler ρ σ}

theorem hasSessions_connect (hc : c.HasSessions) (a : ρ) : (c.connect a).HasSessions := by
  unfold Handler.connect
  cases hs : (c.agents a).session with
  | none => exact hc
  | some s =>
    intro sessionid b hb
    rw [GoMap.lookup_insert] at hb
    split at hb
    · obtain rfl := Option.some.inj hb
      exact Option.isSome_of_mem hs
    · exact hc sessionid b hb

theorem hasSessions_disConnect (hc : c.HasSessions) (a : ρ) : (c.disConnect a).HasSessions := by
  unfold Handler.disConnect
  cases (c.agents a).session with
  | none => exact hc
  | some s =>
    intro sessionid b hb
    rw [GoMap.lookup_erase] at hb
    split at hb
    · cases hb
    · exact hc sessionid b hb

variable [DecidableEq ρ]

theorem hasSessions_onSession (hc : c.HasSessions) {sessionid : String}
    {body : SessionImp → Option SessionImp} {save : σ → SessionImp → σ} {reply : Reply}
    (h : c.onSession sessionid body save = some (reply, c')) : c'.HasSessions := by
  unfold Handler.onSession at h
  cases ha : c.sessions.lookup sessionid with
  | none =>
    rw [ha] at h
    obtain ⟨-, rfl⟩ := Prod.mk.inj (Option.some.inj h)
    exact hc
  | some a =>
    rw [ha] at h
    obtain ⟨s, -, h⟩ := Option.bind_eq_some_iff.mp h
    obtain ⟨s', -, h⟩ := Option.map_eq_some_iff.mp h
    obtain ⟨-, rfl⟩ := Prod.mk.inj h
    intro id b hb
    by_cases hab : b = a
    · subst hab
      simp
    · simpa [hab] using hc id b hb

theorem hasSessions_step {op : Op ρ} (hc : c.HasSessions) (h : c.step g op = some c') : c'.HasSessions := by
  obtain ⟨⟨reply, _⟩, hcall, rfl⟩ := Option.map_eq_some_iff.mp h
  cases op with
  | connect a =>
    obtain ⟨-, rfl⟩ := Prod.mk.inj (Option.some.inj hcall)
    exact hasSessions_connect hc a
  | disConnect a =>
    obtain ⟨-, rfl⟩ := Prod.mk.inj (Option.some.inj hcall)
    exact hasSessions_disConnect hc a
  | bind sessionid userid | unBind sessionid | push sessionid settings | set sessionid key value
  | remove sessionid key =>
    obtain ⟨⟨r, _⟩, hsession, hr⟩ := Option.map_eq_some_iff.mp hcall
    obtain ⟨-, rfl⟩ := Prod.mk.inj hr
    exact hasSessions_onSession hc hsession

/-- The handler is in such a state at every time. -/
theorem hasSessions_run {agents : ρ → Agent} {store : σ} {acts : List (MarkAct ρ)} {m : Marked ρ σ}
    (h : run (Marked.step g) (.init agents store) acts = some m) : m.handler.HasSessions := by
  refine run_invariant (P := fun m : Marked ρ σ => m.handler.HasSessions) (C := fun _ _ => True) ?_ ?_
    (along_of_mem (fun _ _ _ => trivial) _) h
  · intro m act m' hm _ hstep
    cases act with
    | call op =>
      obtain ⟨c, hc, rfl⟩ := Option.map_eq_some_iff.mp hstep
      exact hasSessions_step hm hc
    | onClose a =>
      obtain rfl := Option.some.inj hstep
      exact hm
  · intro sessionid a ha
    rw [Marked.init, Handler.newGateHandler, AList.lookup_empty] at ha
    cases ha

end HasSessions

/-! ## The first agent that is bound to the user -/

namespace Marked

variable {m : Marked ρ σ} {userid : String}

theorem rangeSessions_eq {order : List ρ} (horder : ∀ a ∈ order, (m.handler.agents a).session.isSome) :
    m.rangeSessions userid order
      = some ((order.find? fun a => m.handler.Bound userid a).elim (false, false)
          fun a => (!m.isclose a, true)) := by
  induction order with
  | nil => rfl
  | cons a order ih =>
    obtain ⟨ha, hrest⟩ := List.forall_mem_cons.mp horder
    obtain ⟨s, hs⟩ := Option.isSome_iff_exists.mp ha
    unfold rangeSessions
    rw [hs, Option.bind_some]
    by_cases hbound : s.userId = userid
    · have hfirst : m.handler.Bound userid a := ⟨s, hs, hbound⟩
      rw [if_pos hbound, List.find?_cons, decide_eq_true hfirst]
      rfl
    · have hnot : ¬ m.handler.Bound userid a := by
        rintro ⟨s', hs', h⟩
        exact hbound (Option.some.inj (hs.symm.trans hs') ▸ h)
      rw [if_neg hbound, List.find?_cons, decide_eq_false hnot]
      exact ih hrest

/-- What the caller is to get: whether an agent that is bound to the user is open, and an error when no agent
is bound to the user. -/
def Answers (m : Marked ρ σ) (userid : String) (isconnect : Bool) (err : String) : Prop :=
  (isconnect = true ↔ ∃ a ∈ m.handler.registered, m.handler.Bound userid a ∧ m.isclose a = false) ∧
    (err ≠ "" ↔ ∀ a ∈ m.handler.registered, ¬ m.handler.Bound userid a)

theorem session_of_registered (hm : m.handler.HasSessions) {a : ρ} (ha : a ∈ m.handler.registered) :
    (m.handler.agents a).session.isSome := by
  obtain ⟨⟨sessionid, _⟩, he, rfl⟩ := List.mem_map.mp ha
  exact hm sessionid _ (AList.mem_lookup_iff.mpr he)

/-- What the caller gets is what the first agent that is bound to the user says. -/
theorem isConnect_spec (hm : m.handler.HasSessions) {order : List ρ}
    (horder : order.Perm m.handler.registered) :
    ∃ isconnect err, m.isConnect order userid = some (isconnect, err) ∧
      (isconnect = true
        ↔ ∃ a, (order.find? fun a => m.handler.Bound userid a) = some a ∧ m.isclose a = false) ∧
      (err ≠ "" ↔ ∀ a ∈ m.handler.registered, ¬ m.handler.Bound userid a) := by
  have hsession : ∀ a ∈ order, (m.handler.agents a).session.isSome := fun a ha =>
    session_of_registered hm (horder.mem_iff.mp ha)
  unfold isConnect
  rw [rangeSessions_eq hsession]
  cases hfirst : order.find? fun a => m.handler.Bound userid a with
  | none =>
    refine ⟨false, _, rfl, iff_of_false nofun nofun, iff_of_true ?_ fun a ha hbound => ?_⟩
    · exact fun h => absurd (String.append_eq_empty_iff.mp h).2 (by decide)
    · exact List.find?_eq_none.mp hfirst a (horder.mem_iff.mpr ha) (decide_eq_true hbound)
  | some a =>
    have hfound := List.find?_some hfirst
    have hbound : m.handler.Bound userid a := of_decide_eq_true hfound
    have hmem : a ∈ m.handler.registered := horder.mem_iff.mp (List.mem_of_find?_eq_some hfirst)
    refine ⟨!m.isclose a, "", rfl, ?_, iff_of_false (not_not_intro rfl) fun h => h a hmem hbound⟩
    rw [Bool.not_eq_true']
    exact ⟨fun h => ⟨a, rfl, h⟩, fun ⟨a', ha', h⟩ => Option.some.inj ha' ▸ h⟩

/-- The answer is right in every order of the map if and only if no closed agent that is bound to the user is
beside an open one. -/
theorem isConnect_iff (hm : m.handler.HasSessions) (userid : String) :
    (∀ order : List ρ, order.Perm m.handler.registered →
        ∃ isconnect err, m.isConnect order userid = some (isconnect, err) ∧ m.Answers userid isconnect err)
      ↔ ((∃ a ∈ m.handler.registered, m.handler.Bound userid a ∧ m.isclose a = false) →
        ∀ a ∈ m.handler.registered, m.handler.Bound userid a → m.isclose a = false) := by
  have hfirst := GoMap.find?_perm_iff (l := m.handler.registered)
    (p := fun a => decide (m.handler.Bound userid a)) (q := fun a => m.isclose a = false)
  simp only [decide_eq_true_eq] at hfirst
  rw [← hfirst]
  refine forall₂_congr fun order horder => ?_
  obtain ⟨isconnect, err, hcall, htrue, herr⟩ := @isConnect_spec _ _ _ userid hm _ horder
  rw [← htrue]
  constructor
  · rintro ⟨isconnect', err', hcall', hanswer⟩
    obtain ⟨rfl, rfl⟩ := Prod.mk.inj (Option.some.inj (hcall.symm.trans hcall'))
    exact hanswer.1
  · intro h
    exact ⟨isconnect, err, hcall, h, herr⟩

/-! ### A user with two devices, one of which has just been lost -/

def noStorage : Gate Unit := ⟨none, fun _ => .error ""⟩

def devices (a : Bool) : Agent where
  session := some (.newSessionByMap { sessionid := some (if a then "a" else "b") })
  protocolOK := true

/-- Both devices are bound to the user `u`, and `OnClose` has begun for the first. -/
def oneLost : List (MarkAct Bool) :=
  [.call (.connect true), .call (.connect false), .call (.bind "a" "u"), .call (.bind "b" "u"), .onClose true]

/-- For a user who has no device. -/
theorem isConnect_iff_sample :
    ∃ m : Marked Bool Unit, run (step noStorage) (init devices ()) oneLost = some m ∧
      ((∀ order : List Bool, order.Perm m.handler.registered →
          ∃ isconnect err, m.isConnect order "v" = some (isconnect, err) ∧ m.Answers "v" isconnect err)
        ↔ ((∃ a ∈ m.handler.registered, m.handler.Bound "v" a ∧ m.isclose a = false) →
          ∀ a ∈ m.handler.registered, m.handler.Bound "v" a → m.isclose a = false)) := by
  obtain ⟨m, hm⟩ : ∃ m : Marked Bool Unit, run (step noStorage) (init devices ()) oneLost = some m := ⟨_, rfl⟩
  exact ⟨m, hm, isConnect_iff (hasSessions_run hm) "v"⟩

/-- The answer is `true` or `false`, as the map is gone through; one agent is open. -/
theorem isConnect_order :
    ∃ m : Marked Bool Unit, run (step noStorage) (init devices ()) oneLost = some m ∧
      [true, false].Perm m.handler.registered ∧ [false, true].Perm m.handler.registered ∧
      m.handler.Bound "u" false ∧ m.isclose false = false ∧
      m.isConnect [true, false] "u" = some (false, "") ∧ m.isConnect [false, true] "u" = some (true, "") := by
  refine ⟨_, rfl, ?_, ?_, ⟨_, rfl, rfl⟩, rfl, rfl, rfl⟩
  · exact List.Perm.swap _ _ _
  · exact List.Perm.refl _

end Marked

end Vmqant.BaseGate
