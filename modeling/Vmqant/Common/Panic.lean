import Mathlib

/-!
# Functions that may panic

A Go function with state `σ` either returns or panics, and its effects on the state stand in both cases.
`deferRecover` is a function whose deferred call recovers: the deferred call runs after the body, sees
the panic value if there is one, and may panic itself.
-/

/-- A value given to `panic`, as `recover` and a type switch see it. -/
inductive PanicValue where
  /-- `panic(nil)`. -/
  | nil
  | string (s : String)
  /-- An error whose method `Error` returns the text. -/
  | error (text : String)
  /-- An error whose method `Error` panics, such as one with a nil pointer inside. -/
  | badError (inner : PanicValue)
  | other
deriving DecidableEq

namespace PanicValue

/-- What `recover` returns. With `panicNil` (`GODEBUG=panicnil=1`, the default of programs from before Go
1.21) it returns `nil` for `panic(nil)`, else a `*runtime.PanicNilError`. -/
def recovered (panicNil : Bool) : PanicValue → Option PanicValue
  | .nil =>
    if panicNil then none
    else some (.error "panic called with nil argument (use GODEBUG=panicnil=1 to disable)")
  | v => some v

/-- The text that a type switch with the cases `string` and `error` takes from a panic value. -/
def text : PanicValue → Except PanicValue String
  | .string s => .ok s
  | .error text => .ok text
  | .badError inner => .error inner
  | .nil | .other => .ok ""

/-- `r := recover(); r != nil` and the text of `r`. -/
def report (panicNil : Bool) (v : PanicValue) : Except PanicValue (Option String) :=
  match v.recovered panicNil with
  | none => .ok none
  | some r => r.text.map some

/-- The runtime error of a nil dereference. -/
def nilDereference : PanicValue :=
  .error "runtime error: invalid memory address or nil pointer dereference"

/-- The runtime error of an index that is out of range. -/
def indexOutOfRange (index length : ℕ) : PanicValue :=
  .error s!"runtime error: index out of range [{index}] with length {length}"

/-- The runtime error of a division of integers. -/
def divideByZero : PanicValue := .error "runtime error: integer divide by zero"

@[simp] theorem report_nilDereference (panicNil : Bool) :
    nilDereference.report panicNil
      = .ok (some "runtime error: invalid memory address or nil pointer dereference") := rfl

end PanicValue

/-! ## Functions that return -/

namespace Except

variable {α β : Type} {x : Except PanicValue α}

/-- The function does not panic. -/
def Returns (x : Except PanicValue α) : Prop := ∃ a, x = .ok a

@[simp] theorem returns_ok (a : α) : Returns (.ok a) := ⟨a, rfl⟩

@[simp] theorem not_returns_error (v : PanicValue) : ¬Returns (.error v : Except PanicValue α) := nofun

/-- The second part is reached when the first one returns. -/
theorem bind_eq_ok_iff {f : α → Except PanicValue β} {b : β} :
    x >>= f = .ok b ↔ ∃ a, x = .ok a ∧ f a = .ok b := by
  cases x with
  | error v => exact iff_of_false nofun nofun
  | ok a =>
    constructor
    · exact fun h => ⟨a, rfl, h⟩
    · rintro ⟨a', ha, h⟩
      rw [ha]
      exact h

theorem returns_bind_iff {f : α → Except PanicValue β} :
    Returns (x >>= f) ↔ ∃ a, x = .ok a ∧ Returns (f a) := by
  constructor
  · rintro ⟨b, h⟩
    obtain ⟨a, ha, hb⟩ := bind_eq_ok_iff.mp h
    exact ⟨a, ha, b, hb⟩
  · rintro ⟨a, ha, b, hb⟩
    exact ⟨b, bind_eq_ok_iff.mpr ⟨a, ha, hb⟩⟩

/-- A second part that always returns. -/
theorem returns_bind_iff_of_forall {f : α → Except PanicValue β} (hf : ∀ a, Returns (f a)) :
    Returns (x >>= f) ↔ Returns x := by
  rw [returns_bind_iff]
  exact exists_congr fun a => and_iff_left (hf a)

end Except

/-! ## Slices -/

namespace Slice

variable {α : Type}

/-- `s[i]`. -/
def index (s : List α) (i : ℕ) : Except PanicValue α :=
  match s[i]? with
  | some a => .ok a
  | none => .error (.indexOutOfRange i s.length)

/-- `s[i:]`. -/
def sliceFrom (s : List α) (i : ℕ) : Except PanicValue (List α) :=
  if i ≤ s.length then .ok (s.drop i)
  else .error (.error s!"runtime error: slice bounds out of range [{i}:{s.length}]")

/-- `s[i:j]`. -/
def slice (s : List α) (i j : ℕ) : Except PanicValue (List α) :=
  if j > s.length then .error (.error s!"runtime error: slice bounds out of range [:{j}] with capacity {s.length}")
  else if i > j then .error (.error s!"runtime error: slice bounds out of range [{i}:{j}]")
  else .ok ((s.take j).drop i)

/-- `s[i] = a`. -/
def set (s : List α) (i : ℕ) (a : α) : Except PanicValue (List α) :=
  if i < s.length then .ok (s.set i a) else .error (.indexOutOfRange i s.length)

/-- `copy`, which stops at the end of the shorter slice. -/
def copy (dst src : List α) : List α := src.take dst.length ++ dst.drop src.length

@[simp] theorem sliceFrom_two (a b : α) (s : List α) : sliceFrom (a :: b :: s) 2 = .ok s := by
  rw [sliceFrom, if_pos (by simp)]
  rfl

end Slice

/-! ## Programs -/

/-- A function with state that may panic. -/
def Prog (σ α : Type) := σ → Except PanicValue α × σ

namespace Prog

variable {σ α β : Type}

instance : Monad (Prog σ) where
  pure a s := (.ok a, s)
  bind x f s :=
    match x s with
    | (.ok a, s) => f a s
    | (.error v, s) => (.error v, s)

/-- A change of the state. -/
def modify (f : σ → σ) : Prog σ Unit := fun s => (.ok (), f s)

/-- A computation without effects. -/
def lift (x : Except PanicValue α) : Prog σ α := fun s => (x, s)

/-- `panic(v)`. -/
def panic (v : PanicValue) : Prog σ α := lift (.error v)

/-- A body under `defer func() { r := recover(); ... }()`: `handler` gets what `recover` returns, and
after a panic the results of the function are `zero`. -/
def deferRecover (panicNil : Bool) (zero : α) (body : Prog σ α)
    (handler : Option PanicValue → Prog σ Unit) : Prog σ α := fun s =>
  match body s with
  | (.ok a, s) => (do handler none; pure a : Prog σ α) s
  | (.error v, s) => (do handler (v.recovered panicNil); pure zero : Prog σ α) s

/-! ## What a function does -/

/-- From every state `x` returns or panics as `r` says, and `R` relates the states before and after. -/
def Ends (x : Prog σ α) (r : Except PanicValue α) (R : σ → σ → Prop) : Prop :=
  ∀ s, (x s).1 = r ∧ R s (x s).2

variable {R R' : σ → σ → Prop} {x : Prog σ α} {r : Except PanicValue α}

theorem Ends.pure (a : α) : Ends (Pure.pure a : Prog σ α) (.ok a) Eq := fun _ => ⟨rfl, rfl⟩

theorem Ends.lift (y : Except PanicValue α) : Ends (Prog.lift y : Prog σ α) y Eq := fun _ => ⟨rfl, rfl⟩

theorem Ends.modify (f : σ → σ) : Ends (Prog.modify f) (.ok ()) (fun s s' => s' = f s) := fun _ =>
  ⟨rfl, rfl⟩

theorem Ends.mono (h : Ends x r R) (hR : ∀ s s', R s s' → R' s s') : Ends x r R' := fun s =>
  ⟨(h s).1, hR _ _ (h s).2⟩

theorem bind_of_ok {f : α → Prog σ β} {a : α} {s : σ} (h : (x s).1 = .ok a) :
    (x >>= f) s = f a (x s).2 := by
  change (match x s with
    | (.ok a, s) => f a s
    | (.error v, s) => (.error v, s)) = _
  rw [← Prod.mk.eta (p := x s), h]

theorem bind_of_error {f : α → Prog σ β} {v : PanicValue} {s : σ} (h : (x s).1 = .error v) :
    (x >>= f) s = (.error v, (x s).2) := by
  change (match x s with
    | (.ok a, s) => f a s
    | (.error v, s) => (.error v, s)) = _
  rw [← Prod.mk.eta (p := x s), h]

/-- The second part runs after the first one has returned. -/
theorem Ends.bind {f : α → Prog σ β} {a : α} {r : Except PanicValue β} (hx : Ends x (.ok a) R)
    (hf : Ends (f a) r R') : Ends (x >>= f) r (Relation.Comp R R') := by
  intro s
  rw [bind_of_ok (hx s).1]
  exact ⟨(hf _).1, _, (hx s).2, (hf _).2⟩

/-- A panic skips the second part. -/
theorem Ends.bind_panic {f : α → Prog σ β} {v : PanicValue} (hx : Ends x (.error v) R) :
    Ends (x >>= f) (.error v) R := by
  intro s
  rw [bind_of_error (hx s).1]
  exact ⟨rfl, (hx s).2⟩

theorem Ends.andReturn {y : Prog σ Unit} {r : Except PanicValue Unit} (hy : Ends y r R) (a : α) :
    Ends (do y; Pure.pure a) (r.map fun _ => a) R := by
  cases r with
  | error v => exact hy.bind_panic
  | ok u =>
    refine (hy.bind (Ends.pure a)).mono ?_
    rintro s s' ⟨_, hR, rfl⟩
    exact hR

section Defer

variable {panicNil : Bool} {zero : α} {handler : Option PanicValue → Prog σ Unit}
  {rh : Except PanicValue Unit}

/-- The body returns, and the deferred call runs. -/
theorem Ends.deferRecover {a : α} (hx : Ends x (.ok a) R) (hh : Ends (handler none) rh R') :
    Ends (Prog.deferRecover panicNil zero x handler) (rh.map fun _ => a) (Relation.Comp R R') := by
  intro s
  have hdefer : Prog.deferRecover panicNil zero x handler s
      = (do handler none; Pure.pure a : Prog σ α) (x s).2 := by
    unfold Prog.deferRecover
    rw [← Prod.mk.eta (p := x s), (hx s).1]
  rw [hdefer]
  exact ⟨(hh.andReturn a _).1, _, (hx s).2, (hh.andReturn a _).2⟩

/-- The body panics, and the deferred call gets what `recover` returns. -/
theorem Ends.deferRecover_panic {v : PanicValue} (hx : Ends x (.error v) R)
    (hh : Ends (handler (v.recovered panicNil)) rh R') :
    Ends (Prog.deferRecover panicNil zero x handler) (rh.map fun _ => zero)
      (Relation.Comp R R') := by
  intro s
  have hdefer : Prog.deferRecover panicNil zero x handler s
      = (do handler (v.recovered panicNil); Pure.pure zero : Prog σ α) (x s).2 := by
    unfold Prog.deferRecover
    rw [← Prod.mk.eta (p := x s), (hx s).1]
  rw [hdefer]
  exact ⟨(hh.andReturn zero _).1, _, (hx s).2, (hh.andReturn zero _).2⟩

/-- Whatever the body and the deferred call end with, the state goes through both. -/
theorem leads_deferRecover (hx : ∀ s, R s (x s).2) (hh : ∀ v s, R' s (handler v s).2) (s : σ) :
    Relation.Comp R R' s (Prog.deferRecover panicNil zero x handler s).2 := by
  have hdefer : ∃ v a, Prog.deferRecover panicNil zero x handler s
      = (do handler v; Pure.pure a : Prog σ α) (x s).2 := by
    unfold Prog.deferRecover
    rw [← Prod.mk.eta (p := x s)]
    cases (x s).1 with
    | ok a => exact ⟨none, a, rfl⟩
    | error v => exact ⟨v.recovered panicNil, zero, rfl⟩
  obtain ⟨v, a, hv⟩ := hdefer
  refine ⟨(x s).2, hx s, ?_⟩
  have hlast : ((do handler v; Pure.pure a : Prog σ α) (x s).2).2 = (handler v (x s).2).2 := by
    cases hr : (handler v (x s).2).1 with
    | ok u => exact congrArg Prod.snd (bind_of_ok hr)
    | error w => exact congrArg Prod.snd (bind_of_error hr)
  rw [hv, hlast]
  exact hh v _

end Defer

/-! ## Sequences of calls -/

/-- The results of calls one after the other, also after panics, and the state at the end. -/
def runs {ο : Type} (step : ο → Prog σ α) : List ο → σ → List (Except PanicValue α) × σ
  | [], s => ([], s)
  | o :: os, s => ((step o s).1 :: (runs step os (step o s).2).1, (runs step os (step o s).2).2)

/-- Where single calls have the same result and lead to related states, so do sequences of them. -/
theorem runs_simulates {ο τ : Type} {step : ο → Prog σ α} {step' : ο → Prog τ α} {R : σ → τ → Prop}
    (hstep : ∀ o s t, R s t → (step o s).1 = (step' o t).1 ∧ R (step o s).2 (step' o t).2) (os : List ο)
    {s : σ} {t : τ} (h : R s t) :
    (runs step os s).1 = (runs step' os t).1 ∧ R (runs step os s).2 (runs step' os t).2 := by
  induction os generalizing s t with
  | nil => exact ⟨rfl, h⟩
  | cons o os ih =>
    obtain ⟨hresult, hnext⟩ := hstep o s t h
    obtain ⟨hresults, hend⟩ := ih hnext
    exact ⟨congrArg₂ List.cons hresult hresults, hend⟩

end Prog
