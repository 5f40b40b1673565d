import Vmqant.Common.Panic

/-!
# Programs by their calls

A `Script` is a function as the goroutine that runs it sees it: it makes one call after another, may look
at the result of each, and returns or panics in the end. What the calls do is left to the system that
runs the script, which may let other goroutines run between two of them. `All P` says that each call meets
`P` and that the script itself does not panic, whatever the calls return; `trace` are the calls it makes
when the results are known.
-/

/-- A function that makes calls `κ`, with results `ρ`, and returns an `α` or panics. -/
inductive Script (κ : Type) (ρ : κ → Type) (α : Type) where
  | ret (a : α)
  | call (k : κ) (next : ρ k → Script κ ρ α)
  | panic (v : PanicValue)

namespace Script

variable {κ : Type} {ρ : κ → Type} {α β : Type}

protected def bind : Script κ ρ α → (α → Script κ ρ β) → Script κ ρ β
  | .ret a, f => f a
  | .call k next, f => .call k fun r => (next r).bind f
  | .panic v, _ => .panic v

instance : Monad (Script κ ρ) where
  pure := .ret
  bind := Script.bind

/-- One call. -/
def perform (k : κ) : Script κ ρ (ρ k) := .call k .ret

/-- A computation without calls. -/
def lift : Except PanicValue α → Script κ ρ α
  | .ok a => .ret a
  | .error v => .panic v

theorem bind_bind {γ : Type} (x : Script κ ρ α) (f : α → Script κ ρ β) (g : β → Script κ ρ γ) :
    (x >>= f >>= g) = x >>= fun a => f a >>= g := by
  induction x with
  | ret a => rfl
  | call k next ih => exact congrArg (Script.call k) (funext ih)
  | panic v => rfl

/-! ## Every call -/

/-- Each call meets `P`, and there is no panic. -/
def All (P : κ → Prop) : Script κ ρ α → Prop
  | .ret _ => True
  | .call k next => P k ∧ ∀ r, (next r).All P
  | .panic _ => False

variable {P : κ → Prop}

theorem All.mono {Q : κ → Prop} {x : Script κ ρ α} (hx : x.All P) (h : ∀ k, P k → Q k) : x.All Q := by
  induction x with
  | ret a => trivial
  | call k next ih => exact ⟨h k hx.1, fun r => ih r (hx.2 r)⟩
  | panic v => exact hx

theorem All.bind {x : Script κ ρ α} {f : α → Script κ ρ β} (hx : x.All P) (hf : ∀ a, (f a).All P) :
    (x >>= f).All P := by
  induction x with
  | ret a => exact hf a
  | call k next ih => exact ⟨hx.1, fun r => ih r (hx.2 r)⟩
  | panic v => exact hx.elim

theorem All.perform {k : κ} (hk : P k) : (Script.perform k : Script κ ρ (ρ k)).All P :=
  ⟨hk, fun _ => trivial⟩

/-- A loop over a list makes the calls of its rounds. -/
theorem All.foldlM {γ : Type} {f : α → γ → Script κ ρ α} (hf : ∀ a c, (f a c).All P) (cs : List γ)
    (a : α) : (cs.foldlM f a).All P := by
  induction cs generalizing a with
  | nil => trivial
  | cons c cs ih => exact (hf a c).bind ih

/-! ## The calls of a run -/

/-- The calls that are made when `result` says what they return. -/
def trace (result : ∀ k, ρ k) : Script κ ρ α → List κ
  | .ret _ => []
  | .call k next => k :: (next (result k)).trace result
  | .panic _ => []

variable {result : ∀ k, ρ k}

/-- A loop that comes back to `a` after each round. -/
theorem trace_foldlM {γ : Type} {f : α → γ → Script κ ρ α} {calls : γ → List κ} {a : α}
    (hf : ∀ c (h : α → Script κ ρ β),
      (f a c >>= h).trace result = calls c ++ (h a).trace result)
    (cs : List γ) (g : α → Script κ ρ β) :
    (cs.foldlM f a >>= g).trace result = cs.flatMap calls ++ (g a).trace result := by
  induction cs with
  | nil => rfl
  | cons c cs ih =>
    rw [List.foldlM_cons, bind_bind, hf, ih, List.flatMap_cons, List.append_assoc]

end Script
