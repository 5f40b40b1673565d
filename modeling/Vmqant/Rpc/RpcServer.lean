import Vmqant.Common.Panic
import Vmqant.Rpc.NatsClient

/-!
# The RPC server

Reference: `rpc/base/rpc_server.go`, lines 68-122 and 137-416, and `rpc/rpc.go`, lines 23-75.

What the server does with one request. The state are the results given to `Agent.Callback`, the wait
group, `executing` and the calls of the goroutine control; the hooks of the application, the methods of
the listener and `Agent.Callback` return. Everything else that belongs to the application may panic: the
decoding of a parameter, the registered function, the `Error` method of the error it returns and the
encoding of its result.
-/

namespace Vmqant.Rpc.RPCServer

/-- `rpcpb.RPCInfo`, without the fields the server does not read. -/
structure RPCInfo where
  cid : String
  fn : String
  reply : Bool
  argsType : List String
  args : List (List UInt8)
deriving DecidableEq

/-- A value that a registered function returns, as the type switches on it see it. -/
inductive Out (ω : Type) where
  | nil
  | string (s : String)
  /-- An error, with what its method `Error` does. -/
  | error (text : Except PanicValue String)
  | other (v : ω)

/-- A value that `Bytes2Args` gives. -/
inductive Arg (ν : Type) where
  | nil
  | bytes (b : List UInt8)
  | other (v : ν)

/-- A function as a `reflect.Value`; `call` is its behaviour on arguments that are all there, a mismatch
of types being a panic. -/
structure Func (ν ω : Type) where
  string : String
  numIn : ℕ
  variadic : Bool
  call : List ν → Except PanicValue (List (Out ω))

/-- `mqrpc.FunctionInfo`. A `FuncType` that is not `nil` is known by its `NumIn`. -/
structure FunctionInfo (τ ν ω : Type) where
  function : Func ν ω
  funcType : Option ℕ
  inType : List τ
  goroutine : Bool

/-- What `Register` and `RegisterGO` get: a function and the types of its parameters. -/
structure Registered (τ ν ω : Type) where
  function : Func ν ω
  inType : List τ
  numIn : function.numIn = inType.length
  goroutine : Bool

/-- The `finfo` that is stored. -/
def Registered.info {τ ν ω : Type} (f : Registered τ ν ω) : FunctionInfo τ ν ω where
  function := f.function
  funcType := some f.function.numIn
  inType := f.inType
  goroutine := f.goroutine

/-- `mqrpc.RPCListener`, without the methods whose results are not used. -/
structure Listener (τ ν ω : Type) where
  noFoundFunction : String → Except String (Option (FunctionInfo τ ν ω))
  beforeHandle : String → RPCInfo → Option String

/-- What `reflect`, `argsutil` and `encoding/json` do for the types `τ`, the values `ν` of parameters and
the values `ω` of results. -/
structure Codec (τ ν ω : Type) where
  /-- A pointer to the type is a `mqrpc.Marshaler`; `Unmarshal` gives the argument or an error. -/
  marshaler : τ → Option (List UInt8 → Except PanicValue (Except String ν))
  /-- A pointer to the type is a `proto.Message`. -/
  message : τ → Option (List UInt8 → Except PanicValue (Except String ν))
  bytes2Args : String → List UInt8 → Except PanicValue (Except String (Arg ν))
  zero : τ → ν
  valueOf : List UInt8 → ν
  /-- `[]uint8` is assignable to the type. -/
  assignable : τ → Bool
  /-- `json.Unmarshal` into a new value of the type, `none` on an error. -/
  jsonUnmarshal : τ → List UInt8 → Except PanicValue (Option ν)
  argsTypeAnd2Bytes : Out ω → Except PanicValue (Except String (String × List UInt8))

/-- An `RPCServer` and its application. -/
structure Server (τ ν ω : Type) where
  /-- `GODEBUG=panicnil=1`, see `PanicValue.recovered`. -/
  panicNil : Bool
  /-- `s.module.GetType()`. -/
  moduleType : String
  functions : String → Option (Registered τ ν ω)
  listener : Option (Listener τ ν ω)
  /-- `s.control` is not `nil`. -/
  control : Bool
  codec : Codec τ ν ω

/-- What the processing of requests changes. -/
structure Counters where
  /-- The results given to `Agent.Callback`. -/
  callbacks : List ResultInfo
  wg : ℤ
  executing : ℤ
  /-- The calls of `control.Wait` and `control.Finish`. -/
  waits : ℕ
  finishes : ℕ
deriving DecidableEq

variable {τ ν ω : Type}

/-! ## The computation of the answer -/

/-- The argument of the type `rv` from its tag and bytes; the error ends the request. -/
def decodeArg (c : Codec τ ν ω) (rv : τ) (v : String) (param : List UInt8) :
    Except PanicValue (Except String ν) :=
  match c.marshaler rv with
  | some unmarshal => unmarshal param
  | none =>
    match c.message rv with
    | some unmarshal => unmarshal param
    | none => do
      match ← c.bytes2Args v param with
      | .error err => pure (.error err)
      | .ok .nil => pure (.ok (c.zero rv))
      | .ok (.bytes b) =>
        if c.assignable rv then pure (.ok (c.valueOf b))
        else
          match ← c.jsonUnmarshal rv b with
          | none => pure (.ok (c.valueOf b))
          | some value => pure (.ok value)
      | .ok (.other value) => pure (.ok value)

/-- The loop over `ArgsType` from the index `k` on. -/
def decodeArgs (c : Codec τ ν ω) (inType : List τ) (params : List (List UInt8)) (k : ℕ) :
    List String → Except PanicValue (Except String (List ν))
  | [] => pure (.ok [])
  | v :: argsType =>
    match inType[k]?, params[k]? with
    | none, _ => throw (.indexOutOfRange k inType.length)
    | some _, none => throw (.indexOutOfRange k params.length)
    | some rv, some param => do
      match ← decodeArg c rv v param with
      | .error err => pure (.error err)
      | .ok value =>
        match ← decodeArgs c inType params (k + 1) argsType with
        | .error err => pure (.error err)
        | .ok values => pure (.ok (value :: values))

/-- The slice `in`: it stays `nil` without `ArgsType`, and else has an element for each parameter, those
that the loop did not reach being the zero `reflect.Value`. -/
def inSlice (req : RPCInfo) (values : List ν) : List (Option ν) :=
  if req.argsType.length > 0 then
    values.map some ++ List.replicate (req.args.length - values.length) none
  else []

/-- `f.Call(in)`. -/
def Func.reflectCall (f : Func ν ω) (ins : List (Option ν)) : Except PanicValue (List (Out ω)) :=
  let n := if f.variadic then f.numIn - 1 else f.numIn
  if ins.length < n then throw (.string "reflect: Call with too few input arguments")
  else if f.variadic = false ∧ ins.length > n then
    throw (.string "reflect: Call with too many input arguments")
  else if ins.any Option.isNone then throw (.string "reflect: Call using zero Value argument")
  else f.call (ins.filterMap id)

/-- How `_runFunc` answers: with `_errorCallback`, or with a result. -/
inductive Answer where
  | error (text : String)
  | result (err : String) (resultType : String) (result : List UInt8)
deriving DecidableEq

/-- The error text about a function that does not return two values, or not an error. -/
def returnError (srv : Server τ ν ω) (req : RPCInfo) : String :=
  srv.moduleType ++ " rpc func(" ++ req.fn ++
    ") return error func(....)(result interface\x7b\x7d, err error)\n"

/-- The answer with the first result and the error text `rerr`. -/
def encodeResult (c : Codec τ ν ω) (result : Out ω) (rerr : String) : Except PanicValue Answer := do
  match ← c.argsTypeAnd2Bytes result with
  | .error err => pure (.error err)
  | .ok (argsType, args) => pure (.result rerr argsType args)

/-- The body of `_runFunc` after its `defer` up to the callback. -/
def answer (srv : Server τ ν ω) (info : FunctionInfo τ ν ω) (req : RPCInfo) :
    Except PanicValue Answer := do
  match ← decodeArgs srv.codec info.inType req.args 0 req.argsType with
  | .error err => pure (.error err)
  | .ok values =>
    match srv.listener.bind fun listener => listener.beforeHandle req.fn req with
    | some err => pure (.error err)
    | none =>
      match ← info.function.reflectCall (inSlice req values) with
      | [result, err] =>
        match err with
        | .string rerr => encodeResult srv.codec result rerr
        | .error text => do
          let rerr ← text
          encodeResult srv.codec result rerr
        | .nil => encodeResult srv.codec result ""
        | .other _ => pure (.error (returnError srv req))
      | _ => pure (.error (returnError srv req))

/-! ## The processing of a request -/

/-- `doCallback`. -/
def doCallback (req : RPCInfo) (result : ResultInfo) : Prog Counters Unit :=
  if req.reply then .modify fun s => { s with callbacks := s.callbacks ++ [result] } else pure ()

/-- `_errorCallback`. -/
def errorCallback (req : RPCInfo) (error : String) : Prog Counters Unit :=
  doCallback req ⟨req.cid, error, "null", []⟩

/-- The callback of an answer. -/
def answerCallback (req : RPCInfo) : Answer → Prog Counters Unit
  | .error text => errorCallback req text
  | .result err resultType result => doCallback req ⟨req.cid, err, resultType, result⟩

/-- What both deferred functions do with a recovered value: they take its text, which may panic again,
and call back. -/
def reportPanic (req : RPCInfo) (message : String → String) :
    Option PanicValue → Prog Counters Unit
  | none => pure ()
  | some r => do
    let rn ← .lift r.text
    errorCallback req (message rn)

/-- The deferred function of `_runFunc`. The stack that ends the text is left out. -/
def runDeferred (srv : Server τ ν ω) (req : RPCInfo) (r : Option PanicValue) :
    Prog Counters Unit := do
  .modify fun s =>
    { s with
      wg := s.wg - 1
      executing := s.executing - 1
      finishes := if srv.control then s.finishes + 1 else s.finishes }
  reportPanic req
    (fun rn => srv.moduleType ++ " rpc func(" ++ req.fn ++ ") error " ++ rn ++ "\n ----Stack----\n") r

/-- `%v` of the parameters. -/
def fmtParams (params : List (List UInt8)) : String :=
  "[" ++ " ".intercalate (params.map fun p => "[" ++ " ".intercalate (p.map toString) ++ "]") ++ "]"

/-- `_runFunc`. -/
def _runFunc (srv : Server τ ν ω) (info : FunctionInfo τ ν ω) (req : RPCInfo) :
    Prog Counters Unit :=
  match info.funcType with
  | none => .panic .nilDereference
  | some numIn =>
    if req.args.length ≠ numIn then
      errorCallback req
        ("The number of params " ++ fmtParams req.args ++ " is not adapted." ++ info.function.string)
    else do
      .modify fun s => { s with wg := s.wg + 1, executing := s.executing + 1 }
      .deferRecover srv.panicNil ()
        (do
          let a ← .lift (answer srv info req)
          answerCallback req a)
        (runDeferred srv req)

/-- The end of `runFunc`; a goroutine that is started is returned. -/
def dispatch (srv : Server τ ν ω) (info : FunctionInfo τ ν ω) (req : RPCInfo) :
    Prog Counters (Option (FunctionInfo τ ν ω)) :=
  if info.goroutine then pure (some info)
  else do
    _runFunc srv info req
    pure none

/-- The look-up of the function: `nil` when there is none and nobody was asked, or the listener gave
none. -/
def lookup (srv : Server τ ν ω) (fn : String) : Except String (Option (FunctionInfo τ ν ω)) :=
  match srv.functions fn, srv.listener with
  | some f, _ => .ok (some f.info)
  | none, none => .ok none
  | none, some listener => listener.noFoundFunction fn

/-- `runFunc`. -/
def runFunc (srv : Server τ ν ω) (req : RPCInfo) :
    Prog Counters (Option (FunctionInfo τ ν ω)) :=
  .deferRecover srv.panicNil none
    (do
      .modify fun s => { s with waits := if srv.control then s.waits + 1 else s.waits }
      match lookup srv req.fn with
      | .error err => do
        errorCallback req err
        pure none
      | .ok none => .panic .nilDereference
      | .ok (some info) => dispatch srv info req)
    (reportPanic req id)

/-- How the processing of a request ends. -/
inductive Ending where
  | returned
  /-- The panic leaves `Call`. -/
  | escaped (v : PanicValue)
  /-- The panic leaves a goroutine and ends the program. -/
  | crashed (v : PanicValue)
deriving DecidableEq

/-- `Call`, and the goroutine it may start. -/
def call (srv : Server τ ν ω) (req : RPCInfo) (s : Counters) : Ending × Counters :=
  match runFunc srv req s with
  | (.error v, s) => (.escaped v, s)
  | (.ok none, s) => (.returned, s)
  | (.ok (some info), s) =>
    match _runFunc srv info req s with
    | (.ok (), s) => (.returned, s)
    | (.error v, s) => (.crashed v, s)

end Vmqant.Rpc.RPCServer
