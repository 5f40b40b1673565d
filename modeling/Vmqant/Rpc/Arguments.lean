import Vmqant.Rpc.ArgsUtil
import Vmqant.Rpc.RpcServer

/-!
# The arguments of a call at the receiver

Reference: `rpc/base/rpc_client.go`, lines 153-163; `rpc/base/rpc_server.go`, lines 239-321.

The sender picks the codec of an argument by its value, the receiver by the type of the parameter. They
agree on every value but a nil pointer: the sender writes it as `nil`, and the receiver, which sees a
`mqrpc.Marshaler` or a `proto.Message`, unmarshals the empty bytes into a new value.
-/

namespace Vmqant.Rpc.ArgsUtil

open RPCServer

variable {κ μ ω : Type} {P : Pointers κ}

/-! ## The two ends -/

/-- The loop of `Call` over its parameters, from the index `k` on. -/
def encodeArgs (app : App P μ) :
    ℕ → List (Value P μ) → Except PanicValue (Except String (List String × List (List UInt8)))
  | _, [] => pure (.ok ([], []))
  | k, param :: params => do
    match ← argsTypeAnd2Bytes app param with
    | .error err => pure (.error s!"args[{k}] error {err}")
    | .ok (argsType, arg) =>
      match ← encodeArgs app (k + 1) params with
      | .error err => pure (.error err)
      | .ok (argsTypes, args) => pure (.ok (argsType :: argsTypes, arg :: args))

/-- The types of parameters: `interface{}`, and the types of the values that are encoded natively. -/
inductive GoType (κ : Type) where
  | any
  | string
  | bool
  | int32
  | int64
  | float32
  | float64
  | bytes
  | mapStr
  | pointer (t : κ)

/-- `reflect.TypeOf(arg)` is the type. An untyped `nil` has none, and fits an interface. -/
def Value.HasType : Value P μ → GoType κ → Prop
  | .nil, .any => True
  | .string _, .string => True
  | .bool _, .bool => True
  | .int32 _, .int32 => True
  | .int64 _, .int64 => True
  | .float32 _, .float32 => True
  | .float64 _, .float64 => True
  | .bytes _, .bytes => True
  | .mapStr _, .mapStr => True
  | .pointer t _, .pointer t' => t = t'
  | _, _ => False

/-- A value in the type switch on what `Bytes2Args` gives. -/
def Value.arg : Value P μ → Arg (Value P μ)
  | .nil => .nil
  | .bytes b => .bytes b
  | v => .other v

/-- `reflect.Zero`. -/
def GoType.zero : GoType κ → Value P μ
  | .any => .nil
  | .string => .string []
  | .bool => .bool false
  | .int32 => .int32 0
  | .int64 => .int64 0
  | .float32 => .float32 0
  | .float64 => .float64 0
  | .bytes => .bytes []
  | .mapStr => .mapStr none
  | .pointer t => .pointer t none

/-- A server that decodes its arguments with `argsutil`. The element that is made for a parameter is a
pointer to its type, or to what its type points to. -/
def argsCodec (app : App P μ) (rest : Codec (GoType κ) (Value P μ) ω) :
    Codec (GoType κ) (Value P μ) ω :=
  { rest with
    marshaler := fun
      | .pointer t => (P.marshaler t).map fun m b => do
          pure ((← m.unmarshal b).map fun v => .pointer t (some v))
      | _ => none
    message := fun
      | .pointer t => (P.message t).map fun proto b =>
          pure ((proto.decode b).map fun v => .pointer t (some v))
      | _ => none
    bytes2Args := fun argsType b => do pure ((← bytes2Args app argsType b).map Value.arg)
    zero := GoType.zero
    valueOf := .bytes
    assignable := fun
      | .bytes | .any => true
      | _ => false }

/-! ## One argument -/

/-- The pointer types whose values survive a call: what is marshalled is unmarshalled to the same value. -/
structure Pointers.Lawful (P : Pointers κ) : Prop where
  marshaler : ∀ t m, P.marshaler t = some m → ∀ v, ∃ b,
    m.marshal v = .ok (.ok b) ∧ m.unmarshal b = .ok (.ok v)
  message : ∀ t proto, P.message t = some proto → proto.Lossless

/-- The values that are encoded without a serializer of the application. -/
def Value.Native (app : App P μ) : Value P μ → Prop
  | .mapStr m => app.jsonMapStr.RoundTrips m
  | .pointer t v =>
    ((P.marshaler t).isSome ∨ (P.message t).isSome) ∧
      serializeWith (.pointer t v) app.serializers = .ok none
  | .map _ | .trace _ | .tracePtr _ | .other _ => False
  | _ => True

def Value.NilPointer : Value P μ → Prop
  | .pointer _ none => True
  | _ => False

section One

variable {app app' : App P μ} {rest : Codec (GoType κ) (Value P μ) ω} {τ : GoType κ} {arg : Value P μ}

/-- The tag decides at a parameter that is no pointer. -/
theorem decodeArg_plain (harg : arg.Plain) (hτ : arg.HasType τ) {v : String} {param : List UInt8}
    (hdecode : bytes2Args app' v param = .ok (.ok arg)) :
    decodeArg (argsCodec app' rest) τ v param = .ok (.ok arg) := by
  have hplain : ∀ t, τ ≠ .pointer t := by
    rintro t rfl
    cases arg <;> first | exact hτ.elim | exact harg.elim
  have hmarshaler : (argsCodec app' rest).marshaler τ = none := by
    cases τ <;> first | rfl | exact absurd rfl (hplain _)
  have hmessage : (argsCodec app' rest).message τ = none := by
    cases τ <;> first | rfl | exact absurd rfl (hplain _)
  have hbytes : (argsCodec app' rest).bytes2Args v param = .ok (.ok arg.arg) := by
    change (do pure ((← bytes2Args app' v param).map Value.arg) : Except PanicValue _) = _
    rw [hdecode]
    rfl
  unfold decodeArg
  rw [hmarshaler, hmessage]
  dsimp only
  rw [hbytes]
  cases arg <;> cases τ <;> first | rfl | exact hτ.elim

/-- The receiver of a pointer looks at the type only: the tag does not matter. -/
theorem decodeArg_pointer (t : κ) (v : String) (param : List UInt8) :
    decodeArg (argsCodec app' rest) (.pointer t) v param =
      match P.marshaler t with
      | some m => do pure ((← m.unmarshal param).map fun v => .pointer t (some v))
      | none =>
        match P.message t with
        | some proto => pure ((proto.decode param).map fun v => .pointer t (some v))
        | none => decodeArg (argsCodec app' rest) (.pointer t) v param := by
  cases hm : P.marshaler t with
  | some m =>
    unfold decodeArg argsCodec
    dsimp only
    rw [hm]
    rfl
  | none =>
    cases hp : P.message t with
    | none => rfl
    | some proto =>
      unfold decodeArg argsCodec
      dsimp only
      rw [hm, hp]
      rfl

/-- The value of a pointer comes back as a new pointer to it. -/
theorem decodeArg_some (hP : P.Lawful) {t : κ} {x : P.Val t}
    (ht : (P.marshaler t).isSome ∨ (P.message t).isSome) :
    ∃ argsType b, pointerToBytes P t x = .ok (.ok (argsType, b)) ∧
      ∀ v, decodeArg (argsCodec app' rest) (.pointer t) v b = .ok (.ok (.pointer t (some x))) := by
  unfold pointerToBytes
  cases hm : P.marshaler t with
  | some m =>
    obtain ⟨b, hmarshal, hunmarshal⟩ := hP.marshaler t m hm x
    dsimp only
    rw [hmarshal]
    have hdecode : ∀ v, decodeArg (argsCodec app' rest) (.pointer t) v b
        = .ok (.ok (.pointer t (some x))) := by
      intro v
      rw [decodeArg_pointer, hm]
      dsimp only
      rw [hunmarshal]
      rfl
    by_cases hstring : m.string x ≠ ""
    · refine ⟨s!"{Marshal}@{m.string x}", b, ?_, hdecode⟩
      change (if m.string x ≠ "" then _ else _) = _
      rw [if_pos hstring]
      rfl
    · refine ⟨s!"{Marshal}@{P.typeName t}", b, ?_, hdecode⟩
      change (if m.string x ≠ "" then _ else _) = _
      rw [if_neg hstring]
      rfl
  | none =>
    cases hp : P.message t with
    | none =>
      rw [hm, hp] at ht
      rcases ht with h | h <;> cases h
    | some proto =>
      obtain ⟨b, hencode, hdecode⟩ := hP.message t proto hp x
      refine ⟨s!"{Proto}@{P.typeName t}", b, ?_, fun v => ?_⟩
      · dsimp only
        rw [hencode]
        rfl
      · rw [decodeArg_pointer, hm]
        dsimp only
        rw [hp]
        dsimp only
        rw [hdecode]
        rfl

/-- No bytes give a nil pointer. -/
theorem decodeArg_ne_nilPointer {t : κ} (ht : (P.marshaler t).isSome ∨ (P.message t).isSome)
    (v : String) (param : List UInt8) :
    decodeArg (argsCodec app' rest) (.pointer t) v param ≠ .ok (.ok (.pointer t none)) := by
  rw [decodeArg_pointer]
  cases hm : P.marshaler t with
  | some m =>
    dsimp only
    rcases m.unmarshal param with e | (e | x)
    · exact nofun
    · exact nofun
    · exact nofun
  | none =>
    cases hp : P.message t with
    | none =>
      rw [hm, hp] at ht
      rcases ht with h | h <;> cases h
    | some proto =>
      dsimp only
      rcases proto.decode param with e | x
      · exact nofun
      · exact nofun

/-- **One argument**: it is sent, and it arrives if and only if it is no nil pointer. -/
theorem decodeArg_iff (hP : P.Lawful) (hjson : app'.jsonMapStr = app.jsonMapStr)
    (hnative : arg.Native app) (hτ : arg.HasType τ) :
    ∃ argsType b, argsTypeAnd2Bytes app arg = .ok (.ok (argsType, b)) ∧
      (decodeArg (argsCodec app' rest) τ argsType b = .ok (.ok arg) ↔ ¬ arg.NilPointer) := by
  by_cases hplain : arg.Plain
  · have hmap : arg.MapRoundTrips app := by
      cases arg <;> first | exact hnative | exact trivial
    have hdecode := bytes2Args_wire hplain hmap hjson
    have hnot : ¬ arg.NilPointer := by
      cases arg <;> first | exact id | exact hplain.elim
    exact ⟨_, _, argsTypeAnd2Bytes_wire hplain hmap, iff_of_true (decodeArg_plain hplain hτ hdecode) hnot⟩
  · cases arg with
    | pointer t v =>
      obtain ⟨ht, hserialize⟩ := hnative
      have hsend : argsTypeAnd2Bytes app (.pointer t v) = defaultToBytes app (.pointer t v) := rfl
      cases τ <;> try exact hτ.elim
      obtain rfl : t = _ := hτ
      rw [hsend]
      unfold defaultToBytes
      rw [hserialize]
      cases v with
      | none =>
        exact ⟨NULL, [], rfl, iff_of_false (decodeArg_ne_nilPointer ht _ _) (not_not_intro trivial)⟩
      | some x =>
        have hsome : ∃ argsType b, pointerToBytes P t x = .ok (.ok (argsType, b)) ∧
            ∀ v, decodeArg (argsCodec app' rest) (.pointer t) v b = .ok (.ok (.pointer t (some x))) :=
          decodeArg_some hP ht
        obtain ⟨argsType, b, hencode, hdecode⟩ := hsome
        exact ⟨argsType, b, hencode, iff_of_true (hdecode _) id⟩
    | map m | trace t | tracePtr t | other typeName => exact hnative.elim
    | nil | string s | bool b | int32 i | int64 i | float32 bits | float64 bits | bytes b | mapStr m =>
      exact absurd trivial hplain

end One

/-! ## All arguments -/

section All

variable {app app' : App P μ} {rest : Codec (GoType κ) (Value P μ) ω} {args : List (Value P μ)}

/-- The loop gives an argument and the others, if and only if the first one is decoded to it and the rest
of the loop gives the others. -/
theorem decodeArgs_cons_iff {τ ν : Type} {c : Codec τ ν ω} {inType : List τ}
    {params : List (List UInt8)} {k : ℕ} {rv : τ} {param : List UInt8} (hτ : inType[k]? = some rv)
    (hparam : params[k]? = some param) (v : String) (argsType : List String) (value : ν)
    (values : List ν) :
    decodeArgs c inType params k (v :: argsType) = .ok (.ok (value :: values)) ↔
      decodeArg c rv v param = .ok (.ok value) ∧
        decodeArgs c inType params (k + 1) argsType = .ok (.ok values) := by
  rw [decodeArgs.eq_2, hτ, hparam]
  dsimp only
  rcases decodeArg c rv v param with e | (e | x)
  · exact iff_of_false nofun nofun
  · exact iff_of_false nofun nofun
  · rcases decodeArgs c inType params (k + 1) argsType with e | (e | xs)
    · exact iff_of_false nofun nofun
    · exact iff_of_false nofun nofun
    · constructor
      · intro h
        obtain ⟨rfl, rfl⟩ := List.cons.inj (Except.ok.inj (Except.ok.inj h))
        exact ⟨rfl, rfl⟩
      · rintro ⟨hx, hxs⟩
        obtain rfl := Except.ok.inj (Except.ok.inj hx)
        obtain rfl := Except.ok.inj (Except.ok.inj hxs)
        rfl

theorem encodeArgs_cons {k : ℕ} {arg : Value P μ} {v : String} {b : List UInt8}
    {argsType : List String} {bs : List (List UInt8)}
    (harg : argsTypeAnd2Bytes app arg = .ok (.ok (v, b)))
    (hargs : encodeArgs app (k + 1) args = .ok (.ok (argsType, bs))) :
    encodeArgs app k (arg :: args) = .ok (.ok (v :: argsType, b :: bs)) := by
  rw [encodeArgs, harg]
  dsimp only [bind, Except.bind]
  rw [hargs]
  rfl

theorem getElem?_of_drop {α : Type} {l l' : List α} {k : ℕ} {a : α} (h : l.drop k = a :: l') :
    l[k]? = some a ∧ l.drop (k + 1) = l' := by
  refine ⟨?_, ?_⟩
  · rw [← List.head?_drop, h]
    rfl
  · rw [← List.tail_drop, h]
    rfl

/-- The loops of the two ends, from the index `k` on. -/
theorem decodeArgs_iff (hP : P.Lawful) (hjson : app'.jsonMapStr = app.jsonMapStr)
    {types inType : List (GoType κ)} (htypes : List.Forall₂ Value.HasType args types)
    (hnative : ∀ arg ∈ args, arg.Native app) (k : ℕ) (hdrop : inType.drop k = types) :
    ∃ argsType bs, encodeArgs app k args = .ok (.ok (argsType, bs)) ∧ argsType.length = args.length ∧
      bs.length = args.length ∧ ∀ params : List (List UInt8), params.drop k = bs →
        (decodeArgs (argsCodec app' rest) inType params k argsType = .ok (.ok args) ↔
          ∀ arg ∈ args, ¬ arg.NilPointer) := by
  induction htypes generalizing k with
  | nil => exact ⟨[], [], rfl, rfl, rfl, fun params _ => iff_of_true rfl nofun⟩
  | @cons arg τ args types hτ htypes ih =>
    obtain ⟨hτk, hdrop'⟩ := getElem?_of_drop hdrop
    obtain ⟨harg, hargs⟩ := List.forall_mem_cons.mp hnative
    obtain ⟨v, b, hencode, hdecode⟩ := decodeArg_iff hP hjson harg hτ
    obtain ⟨argsType, bs, hencodes, hlen, hlen', hdecodes⟩ := ih hargs (k + 1) hdrop'
    refine ⟨v :: argsType, b :: bs, encodeArgs_cons hencode hencodes, congrArg (· + 1) hlen,
      congrArg (· + 1) hlen', fun params hparams => ?_⟩
    obtain ⟨hparam, hparams'⟩ := getElem?_of_drop hparams
    rw [decodeArgs_cons_iff hτk hparam, hdecode, hdecodes params hparams', List.forall_mem_cons]

/-- `f.Call` gets the arguments, in their places. -/
structure Arrives (srv : Server (GoType κ) (Value P μ) ω)
    (info : FunctionInfo (GoType κ) (Value P μ) ω) (req : RPCInfo) (args : List (Value P μ)) : Prop where
  counted : info.funcType = some req.args.length
  decoded : decodeArgs srv.codec info.inType req.args 0 req.argsType = .ok (.ok args)
  called : info.function.reflectCall (inSlice req args) = info.function.call args

theorem inSlice_eq {ν : Type} {req : RPCInfo} {values : List ν}
    (htypes : req.argsType.length = values.length) (hargs : req.args.length = values.length) :
    inSlice req values = values.map some := by
  unfold inSlice
  rw [hargs, Nat.sub_self, List.replicate_zero, List.append_nil]
  split
  · rfl
  · next hlen =>
    have hnil : values = [] := List.length_eq_zero_iff.mp (by omega)
    rw [hnil]
    rfl

/-- A function without variadic parameters gets as many arguments as it has parameters. -/
theorem reflectCall_eq {ν : Type} {f : Func ν ω} (hf : f.variadic = false) {values : List ν}
    (hlen : values.length = f.numIn) : f.reflectCall (values.map some) = f.call values := by
  have hlen' : (values.map some).length = f.numIn := by rw [List.length_map, hlen]
  have hall : ((values.map some).any Option.isNone) = false := by
    rw [List.any_eq_false]
    intro o ho
    obtain ⟨value, -, rfl⟩ := List.mem_map.mp ho
    exact nofun
  have hsome : (values.map some).filterMap id = values := by
    rw [List.filterMap_map]
    exact List.filterMap_some
  unfold Func.reflectCall
  rw [hf, hlen', hall, hsome]
  simp

/-- **Arguments arrive**: the arguments of a call are sent, and the registered function, whose parameters
have their types, gets them if and only if no argument is a nil pointer. -/
theorem call_arrives_iff (hP : P.Lawful) (srv : Server (GoType κ) (Value P μ) ω)
    (hsrv : srv.codec = argsCodec app' rest) (hjson : app'.jsonMapStr = app.jsonMapStr)
    (f : Registered (GoType κ) (Value P μ) ω) (hf : f.function.variadic = false)
    (hnative : ∀ arg ∈ args, arg.Native app) (htypes : List.Forall₂ Value.HasType args f.inType) :
    ∃ argsType bs, encodeArgs app 0 args = .ok (.ok (argsType, bs)) ∧
      ∀ req : RPCInfo, req.argsType = argsType → req.args = bs →
        (Arrives srv f.info req args ↔ ∀ arg ∈ args, ¬ arg.NilPointer) := by
  obtain ⟨argsType, bs, hencode, hlen, hlen', hdecode⟩ :=
    decodeArgs_iff hP hjson htypes hnative 0 rfl
  refine ⟨argsType, bs, hencode, ?_⟩
  rintro req rfl rfl
  have hnumIn : args.length = f.function.numIn := htypes.length_eq.trans f.numIn.symm
  rw [← hdecode req.args rfl]
  constructor
  · intro h
    have hdecoded := h.decoded
    rw [hsrv] at hdecoded
    exact hdecoded
  · intro h
    refine ⟨congrArg some (hnumIn.symm.trans hlen'.symm), ?_, ?_⟩
    · rw [hsrv]
      exact h
    · rw [inSlice_eq hlen hlen']
      exact reflectCall_eq hf hnumIn

/-- The call decides about the answer when the listener lets the request pass. -/
theorem Arrives.answer {srv : Server (GoType κ) (Value P μ) ω}
    {info : FunctionInfo (GoType κ) (Value P μ) ω} {req : RPCInfo} (h : Arrives srv info req args)
    (hlistener : (srv.listener.bind fun listener => listener.beforeHandle req.fn req) = none)
    {result : Out ω} (hcall : info.function.call args = .ok [result, .nil]) :
    RPCServer.answer srv info req = encodeResult srv.codec result "" := by
  unfold RPCServer.answer
  rw [h.decoded]
  dsimp only [bind, Except.bind]
  rw [hlistener]
  dsimp only
  rw [h.called, hcall]

/-! A pointer type whose bytes are the value, and a function with two parameters. -/

def samplePointers : Pointers Unit where
  Val _ := List UInt8
  typeName _ := "*demo.Blob"
  marshaler _ := some ⟨fun b => .ok (.ok b), fun b => .ok (.ok b), fun _ => ""⟩
  message _ := none

theorem samplePointers_lawful : samplePointers.Lawful where
  marshaler := by
    rintro ⟨⟩ m hm v
    obtain rfl := Option.some.inj hm
    exact ⟨v, rfl, rfl⟩
  message := nofun

def blobApp : App samplePointers Unit where
  serializers := []
  jsonMap := ⟨fun _ => .error "", fun _ => .error ""⟩
  jsonMapStr := ⟨fun _ => .error "", fun _ => .error ""⟩
  marshalTrace _ := .error ""
  unmarshalTrace _ := .error ""
  generateID := "id"

def blobCodec : Codec (GoType Unit) (Value samplePointers Unit) Unit :=
  argsCodec blobApp
    { marshaler := fun _ => none
      message := fun _ => none
      bytes2Args := fun _ _ => .ok (.error "")
      zero := GoType.zero
      valueOf := .bytes
      assignable := fun _ => false
      jsonUnmarshal := fun _ _ => .ok none
      argsTypeAnd2Bytes := fun _ => .ok (.ok (NULL, [])) }

def blobFunction : Registered (GoType Unit) (Value samplePointers Unit) Unit where
  function := ⟨"func(*demo.Blob, int64)", 2, false, fun _ => .ok [.nil, .nil]⟩
  inType := [.pointer (), .int64]
  numIn := rfl
  goroutine := false

def blobServer : Server (GoType Unit) (Value samplePointers Unit) Unit where
  panicNil := false
  moduleType := "demo"
  functions fn := if fn = "f" then some blobFunction else none
  listener := none
  control := false
  codec := blobCodec

theorem call_arrives_blob :
    ∃ argsType bs, encodeArgs blobApp 0 [.pointer () (some [1]), .int64 (-7)] = .ok (.ok (argsType, bs)) ∧
      ∀ req : RPCInfo, req.argsType = argsType → req.args = bs →
        Arrives blobServer blobFunction.info req [.pointer () (some [1]), .int64 (-7)] := by
  have hnative : ∀ arg ∈ ([.pointer () (some [1]), .int64 (-7)] : List (Value samplePointers Unit)),
      arg.Native blobApp :=
    List.forall_mem_cons.mpr ⟨⟨.inl rfl, rfl⟩, List.forall_mem_cons.mpr ⟨trivial, nofun⟩⟩
  obtain ⟨argsType, bs, hencode, harrives⟩ :=
    call_arrives_iff samplePointers_lawful blobServer rfl rfl blobFunction rfl hnative
      (.cons rfl (.cons trivial .nil))
  refine ⟨argsType, bs, hencode, fun req htypes hargs => (harrives req htypes hargs).mpr ?_⟩
  exact List.forall_mem_cons.mpr ⟨id, List.forall_mem_cons.mpr ⟨id, nofun⟩⟩

/-- A nil pointer is sent as `nil`, and arrives as a pointer to an empty value. -/
theorem not_arrives_nilPointer :
    encodeArgs blobApp 0 [.pointer () none, .int64 (-7)]
      = .ok (.ok (["null", "long"], [[], [255, 255, 255, 255, 255, 255, 255, 249]])) ∧
    ∀ req : RPCInfo, req.argsType = ["null", "long"] →
      req.args = [[], [255, 255, 255, 255, 255, 255, 255, 249]] →
      decodeArgs blobCodec blobFunction.inType req.args 0 req.argsType
        = .ok (.ok [.pointer () (some []), .int64 (-7)]) ∧
      ¬ Arrives blobServer blobFunction.info req [.pointer () none, .int64 (-7)] := by
  refine ⟨rfl, ?_⟩
  rintro req htypes hargs
  have hdecode : decodeArgs blobCodec blobFunction.inType req.args 0 req.argsType
      = .ok (.ok [.pointer () (some []), .int64 (-7)]) := by
    rw [htypes, hargs]
    rfl
  refine ⟨hdecode, fun h => ?_⟩
  have heq := h.decoded.symm.trans hdecode
  cases Except.ok.inj (Except.ok.inj heq)

end All

end Vmqant.Rpc.ArgsUtil
