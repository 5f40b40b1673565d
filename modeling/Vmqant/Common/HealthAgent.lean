import Mathlib

/-!
# An agent with health checks

Services are registered under ids, each with at most one check of its own. A check with a TTL is passed by
the service, any other one is made by the agent. What happens to a service without a request is an event.
-/

namespace HealthAgent

inductive Status where
  | passing
  | warning
  | critical
deriving DecidableEq

/-- The check of a service. -/
structure Check where
  ttl : Bool
  status : Status
deriving DecidableEq

structure Entry (α : Type) where
  service : α
  check : Option Check

end HealthAgent

/-- The services of an agent by their ids. -/
abbrev HealthAgent (ι α : Type) := ι → Option (HealthAgent.Entry α)

namespace HealthAgent

variable {ι α : Type} [DecidableEq ι]

/-- The check that the request asks for replaces the old one, and a request for none keeps it. -/
def register (a : HealthAgent ι α) (id : ι) (service : α) (check : Option Check) : HealthAgent ι α :=
  Function.update a id (some ⟨service, check.or ((a id).bind Entry.check)⟩)

def deregister (a : HealthAgent ι α) (id : ι) : HealthAgent ι α := Function.update a id none

/-- Pass the check of a service, which is refused when it has none with a TTL. -/
def pass? (a : HealthAgent ι α) (id : ι) : Option (HealthAgent ι α) :=
  match a id with
  | some ⟨service, some ⟨true, _⟩⟩ =>
    some (Function.update a id (some ⟨service, some ⟨true, .passing⟩⟩))
  | _ => none

/-- What happens without a request. -/
inductive Event (ι α : Type) where
  /-- A check changes its status. -/
  | status (id : ι) (s : Status)
  /-- A service is lost, or was critical for too long. -/
  | drop (id : ι)
  /-- Another client changes a service. -/
  | other (id : ι) (e : Option (Entry α))

def onEvent (a : HealthAgent ι α) : Event ι α → HealthAgent ι α
  | .status id s =>
    Function.update a id ((a id).map fun e => { e with check := e.check.map fun c => { c with status := s } })
  | .drop id => a.deregister id
  | .other id e => Function.update a id e

variable {a a' : HealthAgent ι α} {id id' : ι} {service : α} {e : Entry α}

/-- The service passes its check, and no other service changes. -/
theorem pass?_eq_some (h : a.pass? id = some a') :
    ∃ service status, a id = some ⟨service, some ⟨true, status⟩⟩ ∧
      a' = Function.update a id (some ⟨service, some ⟨true, .passing⟩⟩) := by
  unfold pass? at h
  split at h
  · next service status hid => exact ⟨service, status, hid, (Option.some.inj h).symm⟩
  · cases h

/-- The services of `a'` are services of `a`. -/
def Keeps (a a' : HealthAgent ι α) (id : ι) : Prop :=
  ∀ e', a' id = some e' → ∃ e, a id = some e ∧ e.service = e'.service

omit [DecidableEq ι] in
theorem Keeps.of_eq (h : a' id = a id) : Keeps a a' id := fun e' he' => ⟨e', h ▸ he', rfl⟩

theorem keeps_pass? (h : a.pass? id = some a') (id' : ι) : Keeps a a' id' := by
  obtain ⟨service, status, hid, rfl⟩ := pass?_eq_some h
  by_cases hne : id' = id
  · subst hne
    intro e' he'
    rw [Function.update_self] at he'
    obtain rfl := Option.some.inj he'
    exact ⟨_, hid, rfl⟩
  · exact Keeps.of_eq (Function.update_of_ne hne _ _)

theorem keeps_deregister (a : HealthAgent ι α) (id id' : ι) : Keeps a (a.deregister id) id' := by
  unfold deregister
  by_cases hne : id' = id
  · subst hne
    intro e' he'
    rw [Function.update_self] at he'
    cases he'
  · exact Keeps.of_eq (Function.update_of_ne hne _ _)

theorem keeps_register (a : HealthAgent ι α) {service : α} {check : Option Check} (h : id' ≠ id) :
    Keeps a (a.register id service check) id' := Keeps.of_eq (Function.update_of_ne h _ _)

/-- An event replaces no service but one that another client changes. -/
theorem keeps_onEvent {ev : Event ι α} (h : ∀ e, ev ≠ .other id e) : Keeps a (a.onEvent ev) id := by
  cases ev with
  | drop id' => exact keeps_deregister a id' id
  | status id' s =>
    by_cases hne : id = id'
    · subst hne
      intro e' he'
      unfold onEvent at he'
      dsimp only at he'
      rw [Function.update_self] at he'
      obtain ⟨e, he, rfl⟩ := Option.map_eq_some_iff.mp he'
      exact ⟨e, he, rfl⟩
    · exact Keeps.of_eq (Function.update_of_ne hne _ _)
  | other id' e =>
    by_cases hne : id = id'
    · exact absurd (hne ▸ rfl) (h e)
    · exact Keeps.of_eq (Function.update_of_ne hne _ _)

end HealthAgent
