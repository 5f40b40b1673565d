import Vmqant.Common.Lts
import Vmqant.Rpc.RpcServer

/-!
# One callback and one token per request

The exits of `runFunc` and `_runFunc` are counted: how many callbacks a request leads to, whether the
wait group and `executing` are restored, and how many tokens of the goroutine control are given back.
`Effect` is such a count, and `Does` says that a part of the program ends in a given way with a given
count; the counts of the parts add up.
-/

namespace Vmqant.Rpc.RPCServer

variable {τ ν ω α β : Type}

/-! ## Counting -/

/-- What a part of the processing of a request adds to the counters. -/
@[ext] structure Effect where
  callbacks : ℕ
  running : ℤ
  waits : ℕ
  finishes : ℕ

namespace Effect

instance : Zero Effect := ⟨⟨0, 0, 0, 0⟩⟩

instance : Add Effect := ⟨fun e e' =>
  ⟨e.callbacks + e'.callbacks, e.running + e'.running, e.waits + e'.waits,
    e.finishes + e'.finishes⟩⟩

@[simp] theorem mk_add_mk (n n' : ℕ) (d d' : ℤ) (w w' f f' : ℕ) :
    (⟨n, d, w, f⟩ + ⟨n', d', w', f'⟩ : Effect) = ⟨n + n', d + d', w + w', f + f'⟩ := rfl

@[simp] theorem zero_add (e : Effect) : 0 + e = e := by
  ext
  · exact Nat.zero_add _
  · exact Int.zero_add _
  · exact Nat.zero_add _
  · exact Nat.zero_add _

@[simp] theorem add_zero (e : Effect) : e + 0 = e := by
  ext
  · exact Nat.add_zero _
  · exact Int.add_zero _
  · exact Nat.add_zero _
  · exact Nat.add_zero _

/-- The counters change by `e`, and each new callback has the id of the request. -/
structure Rel (req : RPCInfo) (e : Effect) (s s' : Counters) : Prop where
  callbacks : ∃ l, s'.callbacks = s.callbacks ++ l ∧ l.length = e.callbacks ∧
    ∀ r ∈ l, r.cid = req.cid
  wg : s'.wg = s.wg + e.running
  executing : s'.executing = s.executing + e.running
  waits : s'.waits = s.waits + e.waits
  finishes : s'.finishes = s.finishes + e.finishes

theorem Rel.refl (req : RPCInfo) (s : Counters) : Rel req 0 s s where
  callbacks := ⟨[], by simp, rfl, by simp⟩
  wg := (Int.add_zero _).symm
  executing := (Int.add_zero _).symm
  waits := rfl
  finishes := rfl

theorem Rel.trans {req : RPCInfo} {e e' : Effect} {s s₁ s' : Counters} (h : Rel req e s s₁)
    (h' : Rel req e' s₁ s') : Rel req (e + e') s s' where
  callbacks := by
    obtain ⟨l, hl, hlen, hcid⟩ := h.callbacks
    obtain ⟨l', hl', hlen', hcid'⟩ := h'.callbacks
    refine ⟨l ++ l', ?_, ?_, ?_⟩
    · rw [hl', hl, List.append_assoc]
    · rw [List.length_append, hlen, hlen']
      rfl
    · intro r hr
      rcases List.mem_append.mp hr with hr | hr
      · exact hcid r hr
      · exact hcid' r hr
  wg := by rw [h'.wg, h.wg, add_assoc]; rfl
  executing := by rw [h'.executing, h.executing, add_assoc]; rfl
  waits := by rw [h'.waits, h.waits, add_assoc]; rfl
  finishes := by rw [h'.finishes, h.finishes, add_assoc]; rfl

end Effect

/-- `x` returns or panics as `r` says, and changes the counters by `e`. -/
def Does (req : RPCInfo) (x : Prog Counters α) (r : Except PanicValue α) (e : Effect) : Prop :=
  x.Ends r (e.Rel req)

namespace Does

variable {req : RPCInfo} {x : Prog Counters α} {r : Except PanicValue α} {e e' : Effect}

theorem comp {x : Prog Counters α}
    (h : x.Ends r (Relation.Comp (e.Rel req) (e'.Rel req))) : Does req x r (e + e') := by
  refine h.mono ?_
  rintro s s' ⟨s₁, h₁, h₂⟩
  exact h₁.trans h₂

theorem congr {r' : Except PanicValue α} (h : Does req x r e) (hr : r = r') (he : e = e') :
    Does req x r' e' := hr ▸ he ▸ h

theorem of_eq (h : Does req x r e) (he : e = e') : Does req x r e' := h.congr rfl he

theorem pure (a : α) : Does req (Pure.pure a) (.ok a) 0 :=
  (Prog.Ends.pure a).mono fun s _ h => h ▸ Effect.Rel.refl req s

theorem lift (y : Except PanicValue α) : Does req (.lift y) y 0 :=
  (Prog.Ends.lift y).mono fun s _ h => h ▸ Effect.Rel.refl req s

theorem panic (v : PanicValue) : Does req (.panic v : Prog Counters α) (.error v) 0 := lift _

theorem bind {f : α → Prog Counters β} {a : α} {r : Except PanicValue β}
    (hx : Does req x (.ok a) e) (hf : Does req (f a) r e') : Does req (x >>= f) r (e + e') :=
  comp (Prog.Ends.bind hx hf)

theorem bind_panic {f : α → Prog Counters β} {v : PanicValue} (hx : Does req x (.error v) e) :
    Does req (x >>= f) (.error v) e :=
  Prog.Ends.bind_panic hx

variable {panicNil : Bool} {z : α} {handler : Option PanicValue → Prog Counters Unit}
  {rh : Except PanicValue Unit}

theorem deferRecover {a : α} (hx : Does req x (.ok a) e) (hh : Does req (handler none) rh e') :
    Does req (.deferRecover panicNil z x handler) (rh.map fun _ => a) (e + e') :=
  comp (Prog.Ends.deferRecover hx hh)

theorem deferRecover_panic {v : PanicValue} (hx : Does req x (.error v) e)
    (hh : Does req (handler (v.recovered panicNil)) rh e') :
    Does req (.deferRecover panicNil z x handler) (rh.map fun _ => z) (e + e') :=
  comp (Prog.Ends.deferRecover_panic hx hh)

end Does

/-! ## The exits -/

section Exits

variable (srv : Server τ ν ω) (info : FunctionInfo τ ν ω) (req : RPCInfo)

/-- The callbacks that one `doCallback` makes. -/
def RPCInfo.replies : ℕ := if req.reply then 1 else 0

/-- The tokens that one request takes, and that its `defer` gives back. -/
def Server.tokens : ℕ := if srv.control then 1 else 0

/-- The callbacks for a recovered panic. -/
def RPCInfo.reports (req : RPCInfo) : Except PanicValue (Option String) → ℕ
  | .ok (some _) => req.replies
  | _ => 0

theorem doCallback_does {result : ResultInfo} (hcid : result.cid = req.cid) :
    Does req (doCallback req result) (.ok ()) ⟨req.replies, 0, 0, 0⟩ := by
  intro s
  unfold doCallback RPCInfo.replies
  split
  · refine ⟨rfl, ⟨[result], rfl, rfl, ?_⟩, ?_, ?_, rfl, rfl⟩
    · simpa using hcid
    · exact (Int.add_zero _).symm
    · exact (Int.add_zero _).symm
  · exact ⟨rfl, Effect.Rel.refl req s⟩

theorem errorCallback_does (error : String) :
    Does req (errorCallback req error) (.ok ()) ⟨req.replies, 0, 0, 0⟩ :=
  doCallback_does req rfl

theorem answerCallback_does (a : Answer) :
    Does req (answerCallback req a) (.ok ()) ⟨req.replies, 0, 0, 0⟩ := by
  cases a with
  | error text => exact errorCallback_does req text
  | result err resultType result => exact doCallback_does req rfl

/-- A recovered panic is called back when `recover` shows it and its text can be taken. -/
theorem reportPanic_does (message : String → String) (panicNil : Bool) (v : PanicValue) :
    Does req (reportPanic req message (v.recovered panicNil))
      ((v.report panicNil).map fun _ => ()) ⟨req.reports (v.report panicNil), 0, 0, 0⟩ := by
  unfold PanicValue.report
  cases v.recovered panicNil with
  | none => exact Does.pure ()
  | some r =>
    dsimp only
    cases htext : r.text with
    | ok rn =>
      have hlift : Does req (.lift r.text) (.ok rn) 0 := htext ▸ Does.lift _
      exact (hlift.bind (errorCallback_does req (message rn))).of_eq (Effect.zero_add _)
    | error w =>
      have hlift : Does req (.lift r.text : Prog Counters String) (.error w) 0 := htext ▸ Does.lift _
      exact hlift.bind_panic

theorem runDeferred_does {r : Option PanicValue} {res : Except PanicValue Unit} {n : ℕ}
    (h : ∀ message, Does req (reportPanic req message r) res ⟨n, 0, 0, 0⟩) :
    Does req (runDeferred srv req r) res ⟨n, -1, 0, srv.tokens⟩ := by
  have hmodify : Does req
      (.modify fun s =>
        { s with
          wg := s.wg - 1
          executing := s.executing - 1
          finishes := if srv.control then s.finishes + 1 else s.finishes })
      (.ok ()) ⟨0, -1, 0, srv.tokens⟩ := by
    intro s
    refine ⟨rfl, ⟨[], (List.append_nil _).symm, rfl, by simp⟩, rfl, rfl, rfl, ?_⟩
    unfold Server.tokens
    split <;> rfl
  refine (hmodify.bind (h _)).of_eq ?_
  rw [Effect.mk_add_mk]
  simp

/-- Whether `_runFunc` calls back, or the panic that leaves it. -/
def outcome : Except PanicValue Bool :=
  match info.funcType with
  | none => .error .nilDereference
  | some numIn =>
    if req.args.length ≠ numIn then .ok true
    else
      match answer srv info req with
      | .ok _ => .ok true
      | .error v => (v.report srv.panicNil).map Option.isSome

/-- The callbacks of an outcome. -/
def RPCInfo.calls (req : RPCInfo) : Except PanicValue Bool → ℕ
  | .ok true => req.replies
  | _ => 0

theorem reports_eq (rep : Except PanicValue (Option String)) :
    req.reports rep = req.calls (rep.map Option.isSome) := by
  rcases rep with w | _ | t <;> rfl

/-- `_runFunc` gets as far as its `defer`. -/
def FunctionInfo.Fits (info : FunctionInfo τ ν ω) (req : RPCInfo) : Prop :=
  info.funcType = some req.args.length

instance : Decidable (info.Fits req) := inferInstanceAs (Decidable (_ = _))

theorem _runFunc_does :
    Does req (_runFunc srv info req) ((outcome srv info req).map fun _ => ())
      ⟨req.calls (outcome srv info req), 0, 0, if info.Fits req then srv.tokens else 0⟩ := by
  unfold _runFunc outcome
  cases htype : info.funcType with
  | none =>
    rw [if_neg (by simp [FunctionInfo.Fits, htype])]
    exact Does.panic _
  | some numIn =>
    dsimp only
    by_cases hnum : req.args.length = numIn
    · rw [if_neg (not_not.mpr hnum), if_neg (not_not.mpr hnum), if_pos (by rw [FunctionInfo.Fits, htype, hnum])]
      have hmodify : Does req
          (.modify fun s => { s with wg := s.wg + 1, executing := s.executing + 1 }) (.ok ())
          ⟨0, 1, 0, 0⟩ := fun s =>
        ⟨rfl, ⟨[], (List.append_nil _).symm, rfl, by simp⟩, rfl, rfl, rfl, rfl⟩
      -- the body returns after one callback, or panics before any
      cases hanswer : answer srv info req with
      | ok a =>
        have hlift : Does req (.lift (.ok a)) (.ok a) 0 := Does.lift _
        have hbody := (hlift.bind (answerCallback_does req a)).of_eq (Effect.zero_add _)
        have hdefer := runDeferred_does srv req (r := none) (n := 0) fun _ => Does.pure ()
        refine (hmodify.bind (hbody.deferRecover hdefer)).of_eq ?_
        simp [RPCInfo.calls]
      | error v =>
        have hlift : Does req (.lift (.error v) : Prog Counters Answer) (.error v) 0 := Does.lift _
        have hbody : Does req (do let a ← .lift (.error v); answerCallback req a) (.error v) 0 :=
          hlift.bind_panic
        have hdefer := runDeferred_does srv req fun message =>
          reportPanic_does req message srv.panicNil v
        have h := (hbody.deferRecover_panic (z := ()) hdefer).of_eq (Effect.zero_add _)
        refine (hmodify.bind (f := fun _ => _) h).congr ?_ ?_
        · dsimp only
          cases v.report srv.panicNil <;> rfl
        · rw [Effect.mk_add_mk, reports_eq]
          simp
    · rw [if_pos hnum, if_pos hnum, if_neg (by simpa [FunctionInfo.Fits, htype] using Ne.symm hnum)]
      exact errorCallback_does req _

/-- The panic `w` that leaves `_runFunc` is called back by `runFunc`. -/
def Server.catches (w : PanicValue) : Bool :=
  match w.report srv.panicNil with
  | .ok (some _) => true
  | _ => false

theorem catches_calls (w : PanicValue) :
    req.reports (w.report srv.panicNil) = req.calls (.ok (srv.catches w)) := by
  unfold Server.catches
  rcases w.report srv.panicNil with w | _ | t <;> rfl

/-- The part of `runFunc` after the look-up. -/
def afterLookup : Prog Counters (Option (FunctionInfo τ ν ω)) :=
  match lookup srv req.fn with
  | .error err => do
    errorCallback req err
    pure none
  | .ok none => .panic .nilDereference
  | .ok (some info) => dispatch srv info req

theorem wait_does :
    Does req (.modify fun s => { s with waits := if srv.control then s.waits + 1 else s.waits })
      (.ok ()) ⟨0, 0, srv.tokens, 0⟩ := by
  intro s
  refine ⟨rfl, ⟨[], (List.append_nil _).symm, rfl, by simp⟩, (Int.add_zero _).symm,
    (Int.add_zero _).symm, ?_, rfl⟩
  change (if srv.control then s.waits + 1 else s.waits) = s.waits + srv.tokens
  unfold Server.tokens
  split <;> rfl

variable {srv req}

theorem runFunc_does_ok {g : Option (FunctionInfo τ ν ω)} {n f : ℕ}
    (h : Does req (afterLookup srv req) (.ok g) ⟨n, 0, 0, f⟩) :
    Does req (runFunc srv req) (.ok g) ⟨n, 0, srv.tokens, f⟩ := by
  have hdefer : Does req (reportPanic req id none) (.ok ()) 0 := Does.pure ()
  refine (((wait_does srv req).bind h).deferRecover hdefer).of_eq ?_
  simp

theorem runFunc_does_panic {w : PanicValue} {f : ℕ}
    (h : Does req (afterLookup srv req) (.error w) ⟨0, 0, 0, f⟩) :
    Does req (runFunc srv req) ((w.report srv.panicNil).map fun _ => none)
      ⟨req.calls (.ok (srv.catches w)), 0, srv.tokens, f⟩ := by
  have hdefer := reportPanic_does req id srv.panicNil w
  refine (((wait_does srv req).bind h).deferRecover_panic hdefer).congr ?_ ?_
  · cases w.report srv.panicNil <;> rfl
  · simp [catches_calls]

/-- Without a goroutine, `Call` does what `runFunc` does. -/
theorem call_rel_of_runFunc {r : Except PanicValue (Option (FunctionInfo τ ν ω))} {e : Effect}
    (h : Does req (runFunc srv req) r e) (hr : ∀ info, r ≠ .ok (some info)) (s : Counters) :
    e.Rel req s (call srv req s).2 := by
  have hcall : (call srv req s).2 = (runFunc srv req s).2 := by
    unfold call
    rw [← Prod.mk.eta (p := runFunc srv req s), (h s).1]
    rcases r with v | _ | info
    · rfl
    · rfl
    · exact absurd rfl (hr info)
  rw [hcall]
  exact (h s).2

/-- With a goroutine, its work is added. -/
theorem call_rel_of_goroutine {info : FunctionInfo τ ν ω} {r : Except PanicValue Unit}
    {e e' : Effect} (h : Does req (runFunc srv req) (.ok (some info)) e)
    (h' : Does req (_runFunc srv info req) r e') (s : Counters) :
    (e + e').Rel req s (call srv req s).2 := by
  have hcall : (call srv req s).2 = (_runFunc srv info req (runFunc srv req s).2).2 := by
    unfold call
    rw [← Prod.mk.eta (p := runFunc srv req s), (h s).1]
    dsimp only
    rw [← Prod.mk.eta (p := _runFunc srv info req _), (h' _).1]
    cases r <;> rfl
  rw [hcall]
  exact (h s).2.trans (h' _).2

variable (srv req)

/-- The request is called back, as far as `reply` asks for it. -/
def answered : Bool :=
  match lookup srv req.fn with
  | .error _ => true
  | .ok none => true
  | .ok (some info) =>
    match outcome srv info req with
    | .ok b => b
    | .error w => !info.goroutine && srv.catches w

/-- The tokens that are given back. -/
def finishing : ℕ :=
  match lookup srv req.fn with
  | .ok (some info) => if info.Fits req then srv.tokens else 0
  | _ => 0

theorem call_rel (s : Counters) :
    Effect.Rel req ⟨req.calls (.ok (answered srv req)), 0, srv.tokens, finishing srv req⟩ s
      (call srv req s).2 := by
  unfold answered finishing
  cases hlookup : lookup srv req.fn with
  | error err =>
    have h : Does req (afterLookup srv req) (.ok none) ⟨req.replies, 0, 0, 0⟩ := by
      unfold afterLookup
      rw [hlookup]
      exact ((errorCallback_does req err).bind (Does.pure none)).of_eq (Effect.add_zero _)
    exact call_rel_of_runFunc (runFunc_does_ok h) (by simp) s
  | ok found =>
    cases found with
    | none =>
      have h : Does req (afterLookup srv req) (.error .nilDereference) 0 := by
        unfold afterLookup
        rw [hlookup]
        exact Does.panic _
      exact call_rel_of_runFunc (runFunc_does_panic h) (by simp [Except.map]) s
    | some info =>
      dsimp only
      have hrun := _runFunc_does srv info req
      cases hgo : info.goroutine with
      | true =>
        have h : Does req (afterLookup srv req) (.ok (some info)) 0 := by
          unfold afterLookup dispatch
          rw [hlookup]
          simp only [hgo, if_true]
          exact Does.pure _
        have hrel := call_rel_of_goroutine (runFunc_does_ok h) hrun s
        rw [Effect.mk_add_mk] at hrel
        cases hout : outcome srv info req with
        | ok b => simpa [hout] using hrel
        | error w => simpa [hout, RPCInfo.calls] using hrel
      | false =>
        have hdispatch : afterLookup srv req = (do _runFunc srv info req; pure none) := by
          unfold afterLookup dispatch
          rw [hlookup]
          simp only [hgo, Bool.false_eq_true, if_false]
        cases hout : outcome srv info req with
        | ok b =>
          rw [hout] at hrun
          have h : Does req (afterLookup srv req) (.ok none) _ :=
            hdispatch ▸ (hrun.bind (Does.pure none)).of_eq (Effect.add_zero _)
          exact call_rel_of_runFunc (runFunc_does_ok h) (by simp) s
        | error w =>
          rw [hout] at hrun
          have h : Does req (afterLookup srv req) (.error w) _ := hdispatch ▸ hrun.bind_panic
          have hnone : ∀ info : FunctionInfo τ ν ω,
              ((w.report srv.panicNil).map fun _ => none) ≠ .ok (some info) := by
            intro info
            cases w.report srv.panicNil <;> simp [Except.map]
          exact call_rel_of_runFunc (runFunc_does_panic h) hnone s

end Exits

/-! ## One callback -/

/-- A panic with the value `v` in the body of `_runFunc` is called back: `recover` shows it and its text
can be taken, or, when `_runFunc` is not a goroutine, this is so for the panic of taking the text. -/
def Caught (panicNil goroutine : Bool) (v : PanicValue) : Prop :=
  (∃ text, v.report panicNil = .ok (some text)) ∨
    goroutine = false ∧ ∃ w text, v.report panicNil = .error w ∧ w.report panicNil = .ok (some text)

/-- The function that is found for the request, if any, is no goroutine without a `FuncType`; and where
it is called with the right number of parameters, a panic of its code is caught. -/
def Safe (srv : Server τ ν ω) (req : RPCInfo) : Prop :=
  ∀ info, lookup srv req.fn = .ok (some info) →
    (info.funcType = none → info.goroutine = false) ∧
    (info.Fits req → ∀ v, answer srv info req = .error v → Caught srv.panicNil info.goroutine v)

/-- The request is called back exactly once, with its id, if it asks for a reply and never otherwise; and
the wait group and `executing` are what they were. -/
def AnsweredOnce (srv : Server τ ν ω) (req : RPCInfo) (s : Counters) : Prop :=
  let s' := (call srv req s).2
  (req.reply = true → ∃ r, s'.callbacks = s.callbacks ++ [r] ∧ r.cid = req.cid) ∧
  (req.reply = false → s'.callbacks = s.callbacks) ∧ s'.wg = s.wg ∧ s'.executing = s.executing

theorem catches_iff (srv : Server τ ν ω) (w : PanicValue) :
    srv.catches w = true ↔ ∃ text, w.report srv.panicNil = .ok (some text) := by
  unfold Server.catches
  rcases w.report srv.panicNil with w | _ | text <;> simp

theorem caught_iff (srv : Server τ ν ω) (goroutine : Bool) (v : PanicValue) :
    Caught srv.panicNil goroutine v ↔
      (match (v.report srv.panicNil).map Option.isSome with
      | .ok b => b
      | .error w => !goroutine && srv.catches w) = true := by
  unfold Caught
  rcases v.report srv.panicNil with w | _ | text
  · simp [Except.map, catches_iff]
  · simp [Except.map]
  · simp [Except.map]

theorem answered_iff_safe (srv : Server τ ν ω) (req : RPCInfo) :
    answered srv req = true ↔ Safe srv req := by
  unfold answered Safe
  cases hlookup : lookup srv req.fn with
  | error err => simp
  | ok found =>
    cases found with
    | none => simp
    | some info =>
      simp only [Except.ok.injEq, Option.some.injEq, forall_eq']
      unfold outcome
      cases htype : info.funcType with
      | none =>
        -- the nil dereference is recovered by `runFunc`, not in a goroutine
        have hcatch : srv.catches .nilDereference = true := rfl
        simp [FunctionInfo.Fits, htype, hcatch]
      | some numIn =>
        dsimp only
        by_cases hnum : req.args.length = numIn
        · have hfits : info.Fits req := by rw [FunctionInfo.Fits, htype, hnum]
          rw [if_neg (not_not.mpr hnum)]
          cases hanswer : answer srv info req with
          | ok a => simp
          | error v => simp [hfits, caught_iff]
        · have hfits : ¬ info.Fits req := by
            simpa [FunctionInfo.Fits, htype] using Ne.symm hnum
          simp [hnum, hfits]

/-- **One callback.** A request is answered exactly once if and only if it asks for no reply or no panic
of its function gets past the deferred calls. -/
theorem call_answeredOnce_iff (srv : Server τ ν ω) (req : RPCInfo) (s : Counters) :
    AnsweredOnce srv req s ↔ (req.reply = true → Safe srv req) := by
  have h := call_rel srv req s
  obtain ⟨l, hl, hlen, hcid⟩ := h.callbacks
  have hrestored : (call srv req s).2.wg = s.wg ∧ (call srv req s).2.executing = s.executing :=
    ⟨h.wg.trans (Int.add_zero _), h.executing.trans (Int.add_zero _)⟩
  unfold AnsweredOnce
  rw [← answered_iff_safe]
  cases hreply : req.reply with
  | false =>
    -- nothing is called back
    have hnil : l = [] := by
      apply List.eq_nil_of_length_eq_zero
      rw [hlen]
      cases answered srv req <;> simp [RPCInfo.calls, RPCInfo.replies, hreply]
    rw [hnil, List.append_nil] at hl
    simp [hl, hrestored]
  | true =>
    cases hanswered : answered srv req with
    | true =>
      have hone : l.length = 1 := by
        rw [hlen, hanswered]
        simp [RPCInfo.calls, RPCInfo.replies, hreply]
      obtain ⟨r, rfl⟩ := List.length_eq_one_iff.mp hone
      have hr := hcid r (List.mem_singleton_self r)
      simp [hl, hr, hrestored]
    | false =>
      have hnil : l = [] := by
        apply List.eq_nil_of_length_eq_zero
        rw [hlen, hanswered]
        rfl
      simp [hl, hnil]

/-- Types and values of one kind only. -/
def plainCodec : Codec Unit Unit Unit where
  marshaler _ := none
  message _ := none
  bytes2Args _ _ := .ok (.ok (.other ()))
  zero _ := ()
  valueOf _ := ()
  assignable _ := true
  jsonUnmarshal _ _ := .ok (some ())
  argsTypeAnd2Bytes _ := .ok (.ok ("null", []))

/-- A server with the function `f` without parameters, registered with `RegisterGO`, a goroutine control
and no listener. -/
def plainServer (f : Except PanicValue (List (Out Unit))) : Server Unit Unit Unit where
  panicNil := false
  moduleType := "m"
  functions fn := if fn = "f" then some ⟨⟨"<func() Value>", 0, false, fun _ => f⟩, [], rfl, true⟩ else none
  listener := none
  control := true
  codec := plainCodec

def Counters.init : Counters := ⟨[], 0, 0, 0, 0⟩

/-- The function panics with a nil `*os.PathError`, whose method `Error` panics. -/
theorem not_answeredOnce_pathError :
    ¬ AnsweredOnce (plainServer (.error (.badError .nilDereference))) ⟨"1", "f", true, [], []⟩
      Counters.init := by
  intro h
  obtain ⟨r, hr, -⟩ := h.1 rfl
  cases hr

/-! ## One token -/

/-- The function is found, it has a `FuncType`, and the number of parameters is right. -/
def Accepted (srv : Server τ ν ω) (req : RPCInfo) : Prop :=
  ∃ info, lookup srv req.fn = .ok (some info) ∧ info.Fits req

/-- The request takes one token and gives one back. -/
def TokenBack (srv : Server τ ν ω) (s : Counters) (req : RPCInfo) : Prop :=
  (call srv req s).2.waits = s.waits + 1 ∧ (call srv req s).2.finishes = s.finishes + 1

/-- One request after the other, as long as the server is there. -/
def serve (srv : Server τ ν ω) (s : Counters) (req : RPCInfo) : Option Counters :=
  match call srv req s with
  | (.returned, s') => some s'
  | _ => none

theorem finishing_eq_one_iff {srv : Server τ ν ω} (hcontrol : srv.control = true) (req : RPCInfo) :
    finishing srv req = 1 ↔ Accepted srv req := by
  have htokens : srv.tokens = 1 := if_pos hcontrol
  unfold finishing Accepted
  cases hlookup : lookup srv req.fn with
  | error err => simp
  | ok found =>
    cases found with
    | none => simp
    | some info => simp [htokens]

/-- **Tokens.** In a sequence of requests each one that takes a token gives exactly one back, if and only
if for each one a function is found and called with the right number of parameters. -/
theorem serve_tokenBack_iff {srv : Server τ ν ω} (hcontrol : srv.control = true) (s : Counters)
    (reqs : List RPCInfo) :
    Lts.Along (serve srv) (TokenBack srv) s reqs ↔
      Lts.Along (serve srv) (fun _ req => Accepted srv req) s reqs := by
  apply Lts.along_congr (P := fun _ => True) (fun _ _ _ _ _ => trivial) _ trivial
  intro s req _
  have h := call_rel srv req s
  have htokens : srv.tokens = 1 := if_pos hcontrol
  rw [← finishing_eq_one_iff hcontrol]
  unfold TokenBack
  rw [h.waits, h.finishes, htokens]
  simp

theorem serve_tokenBack_iff_plainServer :
    Lts.Along (serve (plainServer (.ok [.nil, .nil]))) (TokenBack (plainServer (.ok [.nil, .nil])))
      Counters.init [⟨"1", "f", true, [], []⟩, ⟨"2", "f", false, [], []⟩] := by
  apply (serve_tokenBack_iff rfl Counters.init _).mpr
  exact ⟨⟨_, rfl, rfl⟩, fun _ _ => ⟨⟨_, rfl, rfl⟩, fun _ _ => trivial⟩⟩

/-- An unknown function, and one parameter too many. -/
theorem not_tokenBack_unknown_params :
    ¬ Lts.Along (serve (plainServer (.ok [.nil, .nil]))) (TokenBack (plainServer (.ok [.nil, .nil])))
      Counters.init [⟨"1", "g", true, [], []⟩] ∧
    ¬ Lts.Along (serve (plainServer (.ok [.nil, .nil]))) (TokenBack (plainServer (.ok [.nil, .nil])))
      Counters.init [⟨"1", "f", true, ["null"], [[]]⟩] := by
  refine ⟨fun h => ?_, fun h => ?_⟩
  · cases h.1.2
  · cases h.1.2

end Vmqant.Rpc.RPCServer
