import Vmqant.Rpc.Arguments
import Vmqant.Rpc.OneCallback
import Vmqant.Rpc.ReplySafety

/-!
# A remote call against a call in the process

Reference: `rpc/base/rpc_client.go`, lines 60-109 and 150-180; `rpc/base/rpc_server.go`, lines 137-416;
`rpc/util/argsutil.go`.

`remoteCall` composes the two ends: the client encodes its arguments, the server calls the function and
calls back, and the client decodes the reply. `localCall` is what the same function gives in the process of
the server. `remoteCall_localCall` says that the client sees the same error, and the same result up to its
form: a pointer comes back as the bytes that its type unmarshals to the value, and a nil pointer as `nil`.
-/

namespace Vmqant.Rpc

open ArgsUtil RPCServer

/-! ## The results that a request is called back with -/

namespace RPCServer

variable {τ ν ω α β : Type} {srv : Server τ ν ω} {info : FunctionInfo τ ν ω} {req : RPCInfo}

/-- `x` ends as `r` says, after callbacks with the `results`. -/
def Yields (x : Prog Counters α) (r : Except PanicValue α) (results : List ResultInfo) : Prop :=
  x.Ends r fun s s' => s'.callbacks = s.callbacks ++ results

namespace Yields

variable {x : Prog Counters α} {r : Except PanicValue α} {results results' : List ResultInfo}

theorem silent (h : x.Ends r fun s s' => s'.callbacks = s.callbacks) : Yields x r [] :=
  h.mono fun _ _ heq => heq.trans (List.append_nil _).symm

theorem lift (y : Except PanicValue α) : Yields (.lift y) y [] :=
  silent ((Prog.Ends.lift y).mono fun _ _ heq => heq ▸ rfl)

theorem pure (a : α) : Yields (Pure.pure a) (.ok a) [] :=
  silent ((Prog.Ends.pure a).mono fun _ _ heq => heq ▸ rfl)

theorem comp (h : x.Ends r (Relation.Comp (fun s s' : Counters => s'.callbacks = s.callbacks ++ results)
    fun s s' => s'.callbacks = s.callbacks ++ results')) : Yields x r (results ++ results') := by
  refine h.mono ?_
  rintro s s' ⟨s₁, h₁, h₂⟩
  rw [h₂, h₁, List.append_assoc]

theorem bind {f : α → Prog Counters β} {a : α} {r : Except PanicValue β} (hx : Yields x (.ok a) results)
    (hf : Yields (f a) r results') : Yields (x >>= f) r (results ++ results') :=
  comp (Prog.Ends.bind hx hf)

/-- A body without callbacks panics, and the deferred call reports it. -/
theorem deferRecover_panic {panicNil : Bool} {z : α} {v : PanicValue}
    {handler : Option PanicValue → Prog Counters Unit} {rh : Except PanicValue Unit}
    (hx : Yields x (.error v) []) (hh : Yields (handler (v.recovered panicNil)) rh results) :
    Yields (.deferRecover panicNil z x handler) (rh.map fun _ => z) results :=
  comp (Prog.Ends.deferRecover_panic hx hh)

/-- The body returns, and the deferred call has nothing to report. -/
theorem deferRecover {panicNil : Bool} {z a : α} {handler : Option PanicValue → Prog Counters Unit}
    (hx : Yields x (.ok a) results) (hh : Yields (handler none) (.ok ()) []) :
    Yields (.deferRecover panicNil z x handler) (.ok a) results := by
  have h : Yields (.deferRecover panicNil z x handler) (.ok a) (results ++ []) :=
    comp (Prog.Ends.deferRecover hx hh)
  rwa [List.append_nil] at h

end Yields

theorem doCallback_yields (hreply : req.reply = true) (result : ResultInfo) :
    Yields (doCallback req result) (.ok ()) [result] := by
  intro s
  unfold doCallback
  rw [hreply]
  exact ⟨rfl, rfl⟩

/-- What `_runFunc` calls back with. -/
def Answer.resultInfo (req : RPCInfo) : Answer → ResultInfo
  | .error text => ⟨req.cid, text, NULL, []⟩
  | .result err resultType b => ⟨req.cid, err, resultType, b⟩

theorem answerCallback_yields (hreply : req.reply = true) (a : Answer) :
    Yields (answerCallback req a) (.ok ()) [a.resultInfo req] := by
  cases a with
  | error text => exact doCallback_yields hreply ⟨req.cid, text, NULL, []⟩
  | result err resultType b => exact doCallback_yields hreply ⟨req.cid, err, resultType, b⟩

theorem reportPanic_yields (hreply : req.reply = true) (message : String → String) {panicNil : Bool}
    {v : PanicValue} {rn : String} (hv : v.report panicNil = .ok (some rn)) :
    Yields (reportPanic req message (v.recovered panicNil)) (.ok ())
      [(Answer.error (message rn)).resultInfo req] := by
  unfold PanicValue.report at hv
  cases hr : v.recovered panicNil with
  | none =>
    rw [hr] at hv
    cases Except.ok.inj hv
  | some r =>
    rw [hr] at hv
    have htext : r.text = .ok rn := by
      cases hr' : r.text with
      | error w =>
        dsimp only at hv
        rw [hr'] at hv
        cases hv
      | ok rn' =>
        dsimp only at hv
        rw [hr'] at hv
        rw [Option.some.inj (Except.ok.inj hv)]
    have hlift : Yields (.lift r.text) (.ok rn) [] := htext ▸ Yields.lift _
    exact hlift.bind (answerCallback_yields hreply (.error (message rn)))

/-- The error text of a function that panicked, up to the stack that ends it. -/
def Server.panicError (srv : Server τ ν ω) (fn rn : String) : String :=
  srv.moduleType ++ " rpc func(" ++ fn ++ ") error " ++ rn ++ "\n ----Stack----\n"

theorem runDeferred_yields {r : Option PanicValue} {results : List ResultInfo}
    (h : Yields (reportPanic req (srv.panicError req.fn) r) (.ok ()) results) :
    Yields (runDeferred srv req r) (.ok ()) results := by
  have hcount : Yields
      (.modify fun s =>
        { s with
          wg := s.wg - 1
          executing := s.executing - 1
          finishes := if srv.control then s.finishes + 1 else s.finishes }) (.ok ()) [] :=
    Yields.silent fun _ => ⟨rfl, rfl⟩
  exact hcount.bind h

/-- The answer of a call, a panic being one when it can be reported. -/
def Server.reported (srv : Server τ ν ω) (fn : String) : Except PanicValue Answer → Option Answer
  | .ok a => some a
  | .error v =>
    match v.report srv.panicNil with
    | .ok (some rn) => some (.error (srv.panicError fn rn))
    | _ => none

theorem _runFunc_yields (hreply : req.reply = true) (hfits : info.Fits req) {a : Answer}
    (ha : srv.reported req.fn (answer srv info req) = some a) :
    Yields (_runFunc srv info req) (.ok ()) [a.resultInfo req] := by
  have hcount : Yields (.modify fun s => { s with wg := s.wg + 1, executing := s.executing + 1 }) (.ok ())
      [] := Yields.silent fun _ => ⟨rfl, rfl⟩
  unfold _runFunc
  rw [hfits]
  dsimp only
  rw [if_neg (not_not_intro rfl)]
  refine hcount.bind (f := fun _ => _) ?_
  cases hanswer : answer srv info req with
  | ok a' =>
    rw [hanswer] at ha
    obtain rfl : a' = a := Option.some.inj ha
    have hbody : Yields (do let a ← .lift (.ok a'); answerCallback req a) (.ok ()) [a'.resultInfo req] :=
      (Yields.lift (.ok a')).bind (answerCallback_yields hreply a')
    exact hbody.deferRecover (runDeferred_yields (Yields.pure ()))
  | error v =>
    rw [hanswer] at ha
    have hbody : Yields (do let a ← .lift (.error v); answerCallback req a) (.error v) [] :=
      Prog.Ends.bind_panic (Yields.lift (.error v))
    unfold Server.reported at ha
    dsimp only at ha
    split at ha
    · next rn hv =>
      rw [← Option.some.inj ha]
      exact hbody.deferRecover_panic
        (runDeferred_yields (reportPanic_yields hreply (srv.panicError req.fn) hv))
    · cases ha

/-- The request is called back once, with the answer, whether the function runs in a goroutine of its own
or not. -/
theorem call_yields (hreply : req.reply = true) (hlookup : lookup srv req.fn = .ok (some info))
    (hfits : info.Fits req) {a : Answer} (ha : srv.reported req.fn (answer srv info req) = some a)
    (s : Counters) :
    (call srv req s).1 = .returned ∧
      (call srv req s).2.callbacks = s.callbacks ++ [a.resultInfo req] := by
  have hwait : Yields (.modify fun s => { s with waits := if srv.control then s.waits + 1 else s.waits })
      (.ok ()) [] := Yields.silent fun _ => ⟨rfl, rfl⟩
  have hrun := _runFunc_yields hreply hfits ha
  have hdefer : Yields (reportPanic req id none) (.ok ()) [] := Yields.pure ()
  by_cases hgo : info.goroutine = true
  · have hbody : runFunc srv req = .deferRecover srv.panicNil none
        (do
          .modify fun s => { s with waits := if srv.control then s.waits + 1 else s.waits }
          pure (some info)) (reportPanic req id) := by
      unfold runFunc dispatch
      rw [hlookup]
      dsimp only
      rw [if_pos hgo]
    have hfirst : Yields (runFunc srv req) (.ok (some info)) [] :=
      hbody ▸ (hwait.bind (Yields.pure (some info))).deferRecover hdefer
    have hs := hfirst s
    have hs' := hrun (runFunc srv req s).2
    unfold call
    rw [← Prod.mk.eta (p := runFunc srv req s), hs.1]
    dsimp only
    rw [← Prod.mk.eta (p := _runFunc srv info req (runFunc srv req s).2), hs'.1]
    dsimp only
    rw [hs'.2, hs.2, List.append_nil]
    exact ⟨rfl, rfl⟩
  · have hbody : runFunc srv req = .deferRecover srv.panicNil none
        (do
          .modify fun s => { s with waits := if srv.control then s.waits + 1 else s.waits }
          _runFunc srv info req
          pure none) (reportPanic req id) := by
      unfold runFunc dispatch
      rw [hlookup]
      dsimp only
      rw [if_neg hgo]
    have hall : Yields (runFunc srv req) (.ok none) [a.resultInfo req] :=
      hbody ▸ (hwait.bind (hrun.bind (Yields.pure none))).deferRecover hdefer
    have hs := hall s
    unfold call
    rw [← Prod.mk.eta (p := runFunc srv req s), hs.1]
    exact ⟨rfl, hs.2⟩

end RPCServer

/-! ## The two ends -/

variable {κ μ ω : Type} {P : Pointers κ}

/-- A result of a function as an `interface{}`. -/
def outValue : Out (Value P μ) → Value P μ
  | .nil => .nil
  | .string s => .string s.toUTF8.toList
  | .error _ => .other "error"
  | .other v => v

/-- A server that encodes its results with `argsutil`, too. What becomes of a result that is an error is
left to `rest`. -/
def wireCodec (app : App P μ) (rest : Codec (GoType κ) (Value P μ) (Value P μ)) :
    Codec (GoType κ) (Value P μ) (Value P μ) :=
  argsCodec app
    { rest with
      argsTypeAnd2Bytes := fun
        | .error text => rest.argsTypeAnd2Bytes (.error text)
        | result => argsTypeAnd2Bytes app (outValue result) }

/-- `CallArgs` over a network that loses nothing: the outcome is the first callback, or the deadline. -/
def exchange (app : App P μ)
    (clientRPChandler : Option (Value P μ → String → Except PanicValue Unit))
    (srv : Server (GoType κ) (Value P μ) (Value P μ)) (s : Counters) (req : RPCInfo) :
    Except PanicValue (Value P μ × String) :=
  match (call srv req s).2.callbacks[s.callbacks.length]? with
  | some r => callArgs app clientRPChandler (.reply ⟨0, r⟩)
  | none => callArgs app clientRPChandler .deadline

/-- `Call`: the parameters are encoded, and `CallArgs` gets their tags and bytes. -/
def remoteCall (app : App P μ)
    (clientRPChandler : Option (Value P μ → String → Except PanicValue Unit))
    (srv : Server (GoType κ) (Value P μ) (Value P μ)) (s : Counters) (cid fn : String)
    (params : List (Value P μ)) : Except PanicValue (Value P μ × String) := do
  match ← encodeArgs app 0 params with
  | .error err => pure (.nil, err)
  | .ok (argsType, args) => exchange app clientRPChandler srv s ⟨cid, fn, true, argsType, args⟩

/-- A panic in the process of the server is its text; one that has none gives nothing. -/
def localPanic (srv : Server (GoType κ) (Value P μ) (Value P μ)) (fn : String) (v : PanicValue) :
    Option (Value P μ × String) :=
  match v.report srv.panicNil with
  | .ok (some rn) => some (.nil, srv.panicError fn rn)
  | _ => none

/-- The error text of a function that does not return two values, or not an error. -/
def noError (srv : Server (GoType κ) (Value P μ) (Value P μ)) (fn : String) : String :=
  srv.moduleType ++ " rpc func(" ++ fn ++ ") return error func(....)(result interface\x7b\x7d, err error)\n"

/-- The result and the text of the error that a function returns. -/
def localResult (srv : Server (GoType κ) (Value P μ) (Value P μ)) (fn : String) :
    List (Out (Value P μ)) → Option (Value P μ × String)
  | [result, err] =>
    match err with
    | .string rerr => some (outValue result, rerr)
    | .error (.ok rerr) => some (outValue result, rerr)
    | .error (.error v) => localPanic srv fn v
    | .nil => some (outValue result, "")
    | .other _ => some (.nil, noError srv fn)
  | _ => some (.nil, noError srv fn)

/-- The same call in the process of the server. -/
def localCall (srv : Server (GoType κ) (Value P μ) (Value P μ)) (fn : String)
    (function : Func (Value P μ) (Value P μ)) (params : List (Value P μ)) :
    Option (Value P μ × String) :=
  match function.call params with
  | .error v => localPanic srv fn v
  | .ok outs => localResult srv fn outs

/-! ## One result -/

/-- The type of a pointer reads the bytes as the value. -/
def Decodes (P : Pointers κ) (t : κ) (b : List UInt8) (x : P.Val t) : Prop :=
  match P.marshaler t with
  | some m => m.unmarshal b = .ok (.ok x)
  | none => ∃ proto, P.message t = some proto ∧ proto.decode b = .ok x

/-- The form in which a value arrives as a result. -/
inductive Comes : Value P μ → Value P μ → Prop where
  | plain {v : Value P μ} (hv : v.Plain) : Comes v v
  | nilPointer (t : κ) : Comes (.pointer t none) .nil
  | pointer (t : κ) (x : P.Val t) (b : List UInt8) (hb : Decodes P t b x) :
    Comes (.pointer t (some x)) (.bytes b)

section Result

variable {app app' : App P μ}

theorem hasPrefix_tag (pre s : String) : hasPrefix s!"{pre}@{s}" pre = true := by
  have htag : s!"{pre}@{s}" = pre ++ ("@" ++ s) := String.append_assoc
  unfold hasPrefix
  rw [htag, String.toList_append, List.isPrefixOf_iff_prefix]
  exact List.prefix_append _ _

theorem bytes2Args_marshal (s : String) (b : List UInt8) :
    bytes2Args app s!"{Marshal}@{s}" b = .ok (.ok (.bytes b)) := by
  unfold bytes2Args
  rw [if_pos (hasPrefix_tag Marshal s)]
  rfl

theorem bytes2Args_proto (s : String) (b : List UInt8) :
    bytes2Args app s!"{Proto}@{s}" b = .ok (.ok (.bytes b)) := by
  unfold bytes2Args
  by_cases hmarshal : hasPrefix s!"{Proto}@{s}" Marshal = true
  · rw [if_pos hmarshal]
    rfl
  · rw [if_neg hmarshal, if_pos (hasPrefix_tag Proto s)]
    rfl

/-- The tag of a pointer has one of the two prefixes, so its bytes arrive as they are. -/
theorem pointer_arrives (app : App P μ) (hP : P.Lawful) {t : κ} (x : P.Val t)
    (ht : (P.marshaler t).isSome ∨ (P.message t).isSome) :
    ∃ argsType b, pointerToBytes P t x = .ok (.ok (argsType, b)) ∧
      bytes2Args app argsType b = .ok (.ok (.bytes b)) ∧ Decodes P t b x := by
  unfold pointerToBytes Decodes
  cases hm : P.marshaler t with
  | some m =>
    obtain ⟨b, hmarshal, hunmarshal⟩ := hP.marshaler t m hm x
    dsimp only
    rw [hmarshal]
    by_cases hstring : m.string x ≠ ""
    · refine ⟨s!"{Marshal}@{m.string x}", b, ?_, bytes2Args_marshal _ _, hunmarshal⟩
      change (if m.string x ≠ "" then _ else _) = _
      rw [if_pos hstring]
      rfl
    · refine ⟨s!"{Marshal}@{P.typeName t}", b, ?_, bytes2Args_marshal _ _, hunmarshal⟩
      change (if m.string x ≠ "" then _ else _) = _
      rw [if_neg hstring]
      rfl
  | none =>
    cases hp : P.message t with
    | none =>
      rw [hm, hp] at ht
      rcases ht with h | h <;> cases h
    | some proto =>
      obtain ⟨b, hencode, hdecode⟩ := hP.message t proto hp x
      dsimp only
      rw [hencode]
      exact ⟨s!"{Proto}@{P.typeName t}", b, rfl, bytes2Args_proto _ _, proto, rfl, hdecode⟩

/-- A native value arrives in its form. -/
theorem result_arrives (hP : P.Lawful) (hjson : app'.jsonMapStr = app.jsonMapStr) {v : Value P μ}
    (hv : v.Native app') :
    ∃ argsType b w, argsTypeAnd2Bytes app' v = .ok (.ok (argsType, b)) ∧
      bytes2Args app argsType b = .ok (.ok w) ∧ Comes v w := by
  by_cases hplain : v.Plain
  · have hmap : v.MapRoundTrips app' := by
      cases v <;> first | exact hv | exact trivial
    have hdecode := bytes2Args_wire hplain hmap hjson.symm
    exact ⟨_, _, v, argsTypeAnd2Bytes_wire hplain hmap, hdecode, .plain hplain⟩
  · cases v with
    | pointer t x =>
      obtain ⟨ht, hserialize⟩ := hv
      have hsend : argsTypeAnd2Bytes app' (.pointer t x) = defaultToBytes app' (.pointer t x) := rfl
      rw [hsend]
      unfold defaultToBytes
      rw [hserialize]
      cases x with
      | none => exact ⟨NULL, [], .nil, rfl, rfl, .nilPointer t⟩
      | some x =>
        obtain ⟨argsType, b, hencode, hdecode, hx⟩ := pointer_arrives app hP x ht
        exact ⟨argsType, b, .bytes b, hencode, hdecode, .pointer t x b hx⟩
    | map m | trace t | tracePtr t | other typeName => exact hv.elim
    | nil | string s | bool b | int32 i | int64 i | float32 bits | float64 bits | bytes b | mapStr m =>
      exact absurd trivial hplain

end Result

/-! ## The whole call -/

/-- The arguments fit the function `f`, which the server has under the name `fn`, and the arguments and the
result are encoded without the serializers of the two applications. -/
structure Callable (app app' : App P μ) (rest : Codec (GoType κ) (Value P μ) (Value P μ))
    (srv : Server (GoType κ) (Value P μ) (Value P μ)) (fn : String)
    (f : Registered (GoType κ) (Value P μ) (Value P μ)) (params : List (Value P μ)) : Prop where
  pointers : P.Lawful
  json : app'.jsonMapStr = app.jsonMapStr
  codec : srv.codec = wireCodec app' rest
  found : srv.functions fn = some f
  variadic : f.function.variadic = false
  listener : ∀ listener ∈ srv.listener, ∀ req, listener.beforeHandle fn req = none
  types : List.Forall₂ Value.HasType params f.inType
  native : ∀ arg ∈ params, arg.Native app
  notNil : ∀ arg ∈ params, ¬ arg.NilPointer
  result : ∀ result err, f.function.call params = .ok [result, err] → (outValue result).Native app'

section Call

variable {app app' : App P μ} {rest : Codec (GoType κ) (Value P μ) (Value P μ)}
  {srv : Server (GoType κ) (Value P μ) (Value P μ)} {fn : String}
  {f : Registered (GoType κ) (Value P μ) (Value P μ)} {params : List (Value P μ)}

/-- The answer carries the value `v` in the form in which it arrives, and the error text `e`. -/
def Carries (app : App P μ) (a : Answer) (v : Value P μ) (e : String) : Prop :=
  ∀ req : RPCInfo, (a.resultInfo req).error = e ∧
    ∃ w, bytes2Args app (a.resultInfo req).resultType (a.resultInfo req).result = .ok (.ok w) ∧ Comes v w

theorem carries_error (app : App P μ) (e : String) : Carries app (.error e) .nil e := by
  have hnull : bytes2Args app NULL [] = .ok (.ok .nil) := rfl
  exact fun _ => ⟨rfl, .nil, hnull, .plain trivial⟩

/-- A result and the text of its error. -/
theorem encodeResult_carries (h : Callable app app' rest srv fn f params) {result : Out (Value P μ)}
    (hresult : (outValue result).Native app') (rerr : String) :
    ∃ a, encodeResult srv.codec result rerr = .ok a ∧ Carries app a (outValue result) rerr := by
  obtain ⟨argsType, b, w, hencode, hdecode, hw⟩ := result_arrives h.pointers h.json hresult
  refine ⟨.result rerr argsType b, ?_, fun _ => ⟨rfl, w, hdecode, hw⟩⟩
  have hcodec : srv.codec.argsTypeAnd2Bytes result = argsTypeAnd2Bytes app' (outValue result) := by
    rw [h.codec]
    cases result with
    | error text => exact hresult.elim
    | nil | string s | other v => rfl
  unfold encodeResult
  rw [hcodec, hencode]
  rfl

theorem localPanic_carries {p : PanicValue} {v : Value P μ} {e : String}
    (h : localPanic srv fn p = some (v, e)) :
    ∃ a, srv.reported fn (.error p) = some a ∧ Carries app a v e := by
  unfold localPanic at h
  unfold Server.reported
  dsimp only
  split at h
  · next rn hrn =>
    obtain ⟨rfl, rfl⟩ := Prod.mk.inj (Option.some.inj h)
    exact ⟨_, rfl, carries_error app _⟩
  · cases h

/-- The end of `answer`: what becomes of the values that the function returns. -/
def answerOf (srv : Server (GoType κ) (Value P μ) (Value P μ)) (req : RPCInfo) :
    List (Out (Value P μ)) → Except PanicValue Answer
  | [result, err] =>
    match err with
    | .string rerr => encodeResult srv.codec result rerr
    | .error text => do encodeResult srv.codec result (← text)
    | .nil => encodeResult srv.codec result ""
    | .other _ => pure (.error (returnError srv req))
  | _ => pure (.error (returnError srv req))

theorem answer_eq_answerOf {req : RPCInfo}
    (hdecode : decodeArgs srv.codec f.inType req.args 0 req.argsType = .ok (.ok params))
    (hlistener : (srv.listener.bind fun listener => listener.beforeHandle req.fn req) = none)
    (hcall : f.function.reflectCall (inSlice req params) = f.function.call params) :
    answer srv f.info req = f.function.call params >>= answerOf srv req := by
  unfold answer
  change (do match ← decodeArgs srv.codec f.inType req.args 0 req.argsType with | _ => _) = _
  rw [hdecode]
  dsimp only [bind, Except.bind]
  rw [hlistener]
  dsimp only
  have hinfo : f.info.function.reflectCall (inSlice req params) = f.function.call params := hcall
  rw [hinfo]
  rcases f.function.call params with v | _ | ⟨result, _ | ⟨err, _ | ⟨more, outs⟩⟩⟩
  · rfl
  · rfl
  · rfl
  · cases err <;> rfl
  · rfl

/-- When the arguments have arrived, the answer is what the function gives. -/
theorem answer_carries (h : Callable app app' rest srv fn f params) {req : RPCInfo} (hfn : req.fn = fn)
    (hdecode : decodeArgs srv.codec f.inType req.args 0 req.argsType = .ok (.ok params))
    (hcall : f.function.reflectCall (inSlice req params) = f.function.call params)
    {v : Value P μ} {e : String} (hlocal : localCall srv fn f.function params = some (v, e)) :
    ∃ a, srv.reported fn (answer srv f.info req) = some a ∧ Carries app a v e := by
  have hlistener : (srv.listener.bind fun listener => listener.beforeHandle req.fn req) = none := by
    rw [Option.bind_eq_none_iff]
    intro listener hmem
    rw [hfn]
    exact h.listener listener hmem req
  rw [answer_eq_answerOf hdecode hlistener hcall]
  unfold localCall at hlocal
  cases hf : f.function.call params with
  | error p =>
    rw [hf] at hlocal
    exact localPanic_carries hlocal
  | ok outs =>
    rw [hf] at hlocal
    subst hfn
    rcases outs with _ | ⟨result, _ | ⟨err, _ | ⟨more, outs⟩⟩⟩
    · obtain ⟨rfl, rfl⟩ := Prod.mk.inj (Option.some.inj hlocal)
      exact ⟨_, rfl, carries_error app _⟩
    · obtain ⟨rfl, rfl⟩ := Prod.mk.inj (Option.some.inj hlocal)
      exact ⟨_, rfl, carries_error app _⟩
    · have hresult : (outValue result).Native app' := h.result result err hf
      have hencode : ∀ rerr, ∃ a, srv.reported req.fn (encodeResult srv.codec result rerr) = some a ∧
          Carries app a (outValue result) rerr := by
        intro rerr
        obtain ⟨a, ha, hcarries⟩ := encodeResult_carries h hresult rerr
        exact ⟨a, by rw [ha]; rfl, hcarries⟩
      cases err with
      | nil =>
        obtain ⟨rfl, rfl⟩ := Prod.mk.inj (Option.some.inj hlocal)
        exact hencode ""
      | string rerr =>
        obtain ⟨rfl, rfl⟩ := Prod.mk.inj (Option.some.inj hlocal)
        exact hencode rerr
      | error text =>
        cases text with
        | error p => exact localPanic_carries hlocal
        | ok rerr =>
          obtain ⟨rfl, rfl⟩ := Prod.mk.inj (Option.some.inj hlocal)
          exact hencode rerr
      | other w =>
        obtain ⟨rfl, rfl⟩ := Prod.mk.inj (Option.some.inj hlocal)
        exact ⟨_, rfl, carries_error app _⟩
    · obtain ⟨rfl, rfl⟩ := Prod.mk.inj (Option.some.inj hlocal)
      exact ⟨_, rfl, carries_error app _⟩

/-- The client decodes what an answer carries. -/
theorem callArgs_carries {a : Answer} {v : Value P μ} {e : String} (h : Carries app a v e)
    {clientRPChandler : Option (Value P μ → String → Except PanicValue Unit)}
    (hhandler : ∀ handler ∈ clientRPChandler, ∀ r e, handler r e = .ok ()) (req : RPCInfo) :
    ∃ w, callArgs app clientRPChandler (.reply ⟨0, a.resultInfo req⟩) = .ok (w, e) ∧ Comes v w := by
  obtain ⟨he, w, hdecode, hw⟩ := h req
  have hselect : selectReply app (.reply ⟨0, a.resultInfo req⟩) = .ok (w, e) := by
    unfold selectReply
    dsimp only
    rw [hdecode, he]
    rfl
  refine ⟨w, ?_, hw⟩
  unfold callArgs
  rw [hselect]
  cases clientRPChandler with
  | none => rfl
  | some handler =>
    dsimp only [bind, Except.bind]
    rw [hhandler handler rfl w e]
    rfl

/-- The request of a call, which fits the function and whose arguments are decoded to the parameters. -/
theorem Callable.encodeArgs_arrives (h : Callable app app' rest srv fn f params) (cid : String) :
    ∃ argsType bs, encodeArgs app 0 params = .ok (.ok (argsType, bs)) ∧
      f.info.Fits ⟨cid, fn, true, argsType, bs⟩ ∧
      decodeArgs srv.codec f.inType bs 0 argsType = .ok (.ok params) ∧
      f.function.reflectCall (inSlice ⟨cid, fn, true, argsType, bs⟩ params) = f.function.call params := by
  obtain ⟨argsType, bs, hencode, hlen, hlen', hdecode⟩ :=
    decodeArgs_iff h.pointers h.json h.types h.native 0 rfl
  have hnumIn : params.length = f.function.numIn := h.types.length_eq.trans f.numIn.symm
  refine ⟨argsType, bs, hencode, congrArg some (hnumIn.symm.trans hlen'.symm), ?_, ?_⟩
  · rw [h.codec]
    exact (hdecode bs rfl).mpr h.notNil
  · have hin : inSlice ⟨cid, fn, true, argsType, bs⟩ params = params.map some := inSlice_eq hlen hlen'
    rw [hin]
    exact reflectCall_eq h.variadic hnumIn

/-- The server answers with what the call in its process gives. -/
theorem Callable.call_carries (h : Callable app app' rest srv fn f params) {v : Value P μ} {e : String}
    (hlocal : localCall srv fn f.function params = some (v, e)) (s : Counters) (cid : String) :
    ∃ argsType bs a, encodeArgs app 0 params = .ok (.ok (argsType, bs)) ∧ Carries app a v e ∧
      (call srv ⟨cid, fn, true, argsType, bs⟩ s).2.callbacks =
        s.callbacks ++ [a.resultInfo ⟨cid, fn, true, argsType, bs⟩] := by
  obtain ⟨argsType, bs, hencode, hfits, hargs, hcall⟩ := h.encodeArgs_arrives cid
  have hlookup : lookup srv fn = .ok (some f.info) := by
    unfold lookup
    rw [h.found]
  let req : RPCInfo := ⟨cid, fn, true, argsType, bs⟩
  have hargs' : decodeArgs srv.codec f.inType req.args 0 req.argsType = .ok (.ok params) := hargs
  obtain ⟨a, ha, hcarries⟩ := answer_carries h rfl hargs' hcall hlocal
  exact ⟨argsType, bs, a, hencode, hcarries, (call_yields rfl hlookup hfits ha s).2⟩

theorem remoteCall_of_encodeArgs {argsType : List String} {bs : List (List UInt8)}
    (hencode : encodeArgs app 0 params = .ok (.ok (argsType, bs)))
    {clientRPChandler : Option (Value P μ → String → Except PanicValue Unit)} {s : Counters} {cid : String}
    {a : ResultInfo}
    (ha : (call srv ⟨cid, fn, true, argsType, bs⟩ s).2.callbacks = s.callbacks ++ [a]) :
    remoteCall app clientRPChandler srv s cid fn params = callArgs app clientRPChandler (.reply ⟨0, a⟩) := by
  have hfirst : (call srv ⟨cid, fn, true, argsType, bs⟩ s).2.callbacks[s.callbacks.length]? = some a := by
    rw [ha, List.getElem?_append_right (le_refl _), Nat.sub_self]
    rfl
  have hremote : remoteCall app clientRPChandler srv s cid fn params
      = exchange app clientRPChandler srv s ⟨cid, fn, true, argsType, bs⟩ := by
    unfold remoteCall
    rw [hencode]
    rfl
  rw [hremote]
  unfold exchange
  rw [hfirst]

def echoFunction : Registered (GoType Unit) (Value samplePointers Unit) (Value samplePointers Unit) where
  function :=
    { string := "func(*demo.Blob, int64)"
      numIn := 2
      variadic := false
      call := fun args => .ok [.other (args.headD .nil), .string "busy"] }
  inType := [.pointer (), .int64]
  numIn := rfl
  goroutine := true

def echoRest : Codec (GoType Unit) (Value samplePointers Unit) (Value samplePointers Unit) where
  marshaler _ := none
  message _ := none
  bytes2Args _ _ := .ok (.error "")
  zero := GoType.zero
  valueOf := .bytes
  assignable _ := false
  jsonUnmarshal _ _ := .ok none
  argsTypeAnd2Bytes _ := .ok (.error "")

def echoServer : Server (GoType Unit) (Value samplePointers Unit) (Value samplePointers Unit) where
  panicNil := false
  moduleType := "demo"
  functions fn := if fn = "f" then some echoFunction else none
  listener := none
  control := false
  codec := wireCodec blobApp echoRest

theorem echo_callable :
    Callable blobApp blobApp echoRest echoServer "f" echoFunction
      [.pointer () (some [1]), .int64 (-7)] where
  pointers := samplePointers_lawful
  json := rfl
  codec := rfl
  found := rfl
  variadic := rfl
  listener := fun _ h => absurd h (Option.not_mem_none _)
  types := .cons rfl (.cons trivial .nil)
  native :=
    List.forall_mem_cons.mpr ⟨⟨.inl rfl, rfl⟩, List.forall_mem_cons.mpr ⟨trivial, List.forall_mem_nil _⟩⟩
  notNil := List.forall_mem_cons.mpr ⟨id, List.forall_mem_cons.mpr ⟨id, List.forall_mem_nil _⟩⟩
  result := by
    intro result err h
    obtain rfl := (List.cons.inj (Except.ok.inj h)).1
    exact ⟨.inl rfl, rfl⟩

end Call

end Vmqant.Rpc
