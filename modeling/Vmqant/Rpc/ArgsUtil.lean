import Vmqant.Common.ByteCodec
import Vmqant.Registry.Service
import Vmqant.Utils.ParamsBytes

/-!
# The codec of the arguments of a call

Reference: `rpc/util/argsutil.go`; `log/define.go`, lines 34-68; `utils/params_bytes.go`, lines 94-123.

The sender picks a tag by the Go type of the value, and asks the serializers of the application only when
no other case fits. The receiver tests the tag for the two prefixes first. A slice of bytes is its content,
and floats are their bits.
-/

namespace Vmqant.Rpc.ArgsUtil

open Mqanttools

def NULL := "null"
def BOOL := "bool"
def INT := "int"
def LONG := "long"
def FLOAT := "float"
def DOUBLE := "double"
def BYTES := "bytes"
def STRING := "string"
def MAP := "map"
def MAPSTR := "mapstr"
def TRACE := "trace"
def Marshal := "marshal"
def Proto := "proto"

/-! ## Values -/

/-- `mqrpc.Marshaler`, for the values that the pointers of a type point to. -/
structure Marshaler (α : Type) where
  marshal : α → Except PanicValue (Except String (List UInt8))
  /-- What `Unmarshal` makes of a new value. -/
  unmarshal : List UInt8 → Except PanicValue (Except String α)
  string : α → String

/-- The pointer types, with the methods that a type switch looks for. -/
structure Pointers (κ : Type) where
  Val : κ → Type
  /-- `reflect.TypeOf`. -/
  typeName : κ → String
  marshaler : (t : κ) → Option (Marshaler (Val t))
  /-- `proto.Marshal` and `proto.Unmarshal` for a `proto.Message`. -/
  message : (t : κ) → Option (ByteCodec (Val t))

structure TraceSpanImp where
  trace : String
  span : String
deriving DecidableEq

/-- An `interface{}`; `μ` are the values of `map[string]interface{}`. A pointer or a map that is `none` is
nil, and has its type. -/
inductive Value {κ : Type} (P : Pointers κ) (μ : Type) where
  | nil
  | string (s : List UInt8)
  | bool (b : Bool)
  | int32 (i : Int32)
  | int64 (i : Int64)
  | float32 (bits : UInt32)
  | float64 (bits : UInt64)
  | bytes (b : List UInt8)
  | map (m : μ)
  | mapStr (m : Option Registry.Metadata)
  | trace (t : TraceSpanImp)
  | tracePtr (t : Option TraceSpanImp)
  | pointer (t : κ) (v : Option (P.Val t))
  /-- A value of another type, which is no pointer. -/
  | other (typeName : String)

variable {κ μ : Type} {P : Pointers κ}

/-- `reflect.TypeOf`, as it is printed. -/
def Value.typeName : Value P μ → String
  | .nil => "<nil>"
  | .string _ => "string"
  | .bool _ => "bool"
  | .int32 _ => "int32"
  | .int64 _ => "int64"
  | .float32 _ => "float32"
  | .float64 _ => "float64"
  | .bytes _ => "[]uint8"
  | .map _ => "map[string]interface \x7b\x7d"
  | .mapStr _ => "map[string]string"
  | .trace _ => "log.TraceSpanImp"
  | .tracePtr _ => "*log.TraceSpanImp"
  | .pointer t _ => P.typeName t
  | .other typeName => typeName

/-- `module.RPCSerialize`. -/
structure RPCSerialize (P : Pointers κ) (μ : Type) where
  serialize : Value P μ → Except PanicValue (Except String (String × List UInt8))
  deserialize : String → List UInt8 → Except PanicValue (Except String (Value P μ))

/-- What `argsutil` uses of an application and of `encoding/json`. -/
structure App (P : Pointers κ) (μ : Type) where
  /-- `GetRPCSerialize`, in the order of the loop. -/
  serializers : List (RPCSerialize P μ)
  jsonMap : ByteCodec μ
  jsonMapStr : ByteCodec (Option Registry.Metadata)
  /-- `json.Marshal` of a `log.TraceSpanImp` or of a pointer to one. -/
  marshalTrace : Option TraceSpanImp → Except String (List UInt8)
  /-- What `json.Unmarshal` makes of an empty `log.TraceSpanImp`. -/
  unmarshalTrace : List UInt8 → Except String TraceSpanImp
  /-- `mqanttools.GenerateID`. -/
  generateID : String

/-- `ExtractSpan`. -/
def TraceSpanImp.extractSpan (t : TraceSpanImp) (generateID : String) : TraceSpanImp :=
  { t with span := generateID }

/-! ## The sender -/

/-- The loop over the serializers: the first that does not fail. -/
def serializeWith (arg : Value P μ) :
    List (RPCSerialize P μ) → Except PanicValue (Option (String × List UInt8))
  | [] => pure none
  | v :: serializers => do
    match ← v.serialize arg with
    | .ok result => pure (some result)
    | .error _ => serializeWith arg serializers

/-- A pointer that is not nil. -/
def pointerToBytes (P : Pointers κ) (t : κ) (v : P.Val t) :
    Except PanicValue (Except String (String × List UInt8)) :=
  match P.marshaler t with
  | some m => do
    match ← m.marshal v with
    | .error err => pure (.error s!"args [{P.typeName t}] marshal error {err}")
    | .ok b =>
      if m.string v ≠ "" then pure (.ok (s!"{Marshal}@{m.string v}", b))
      else pure (.ok (s!"{Marshal}@{P.typeName t}", b))
  | none =>
    match P.message t with
    | some proto =>
      match proto.encode v with
      | .error err => pure (.error s!"args [{P.typeName t}] proto.Marshal error {err}")
      | .ok b => pure (.ok (s!"{Proto}@{P.typeName t}", b))
    | none =>
      pure (.error s!"Args2Bytes [{P.typeName t}] not registered to app.addrpcserialize(...) structure type")

/-- The `default` case. -/
def defaultToBytes (app : App P μ) (arg : Value P μ) :
    Except PanicValue (Except String (String × List UInt8)) := do
  match ← serializeWith arg app.serializers with
  | some result => pure (.ok result)
  | none =>
    match arg with
    | .pointer _ none => pure (.ok (NULL, []))
    | .pointer t (some v) => pointerToBytes P t v
    | arg =>
      pure (.error (s!"Args2Bytes [{arg.typeName}] not registered to app.addrpcserialize(...) structure " ++
        "type or not *mqrpc.marshaler pointer type"))

/-- `ArgsTypeAnd2Bytes`; the tag that comes with an error is not used. -/
def argsTypeAnd2Bytes (app : App P μ) (arg : Value P μ) :
    Except PanicValue (Except String (String × List UInt8)) :=
  match arg with
  | .nil => pure (.ok (NULL, []))
  | .bytes v2 => pure (.ok (BYTES, v2))
  | .string v2 => pure (.ok (STRING, v2))
  | .bool v2 => pure (.ok (BOOL, boolToBytes v2))
  | .int32 v2 => pure (.ok (INT, int32ToBytes v2))
  | .int64 v2 => pure (.ok (LONG, int64ToBytes v2))
  | .float32 v2 => pure (.ok (FLOAT, float32ToBytes v2))
  | .float64 v2 => pure (.ok (DOUBLE, float64ToBytes v2))
  | .map v2 => pure ((app.jsonMap.encode v2).map fun bytes => (MAP, bytes))
  | .mapStr v2 => pure ((app.jsonMapStr.encode v2).map fun bytes => (MAPSTR, bytes))
  | .trace v2 => pure ((app.marshalTrace (some v2)).map fun bytes => (TRACE, bytes))
  | .tracePtr v2 => pure ((app.marshalTrace v2).map fun bytes => (TRACE, bytes))
  | arg => defaultToBytes app arg

/-! ## The receiver -/

/-- `strings.HasPrefix`. -/
def hasPrefix (s pre : String) : Bool := pre.toList.isPrefixOf s.toList

/-- The loop over the serializers. -/
def deserializeWith (argsType : String) (args : List UInt8) :
    List (RPCSerialize P μ) → Except PanicValue (Except String (Value P μ))
  | [] => pure (.error s!"Bytes2Args [{argsType}] not registered to app.addrpcserialize(...)")
  | v :: serializers => do
    match ← v.deserialize argsType args with
    | .ok vk => pure (.ok vk)
    | .error _ => deserializeWith argsType args serializers

/-- `Bytes2Args`. -/
def bytes2Args (app : App P μ) (argsType : String) (args : List UInt8) :
    Except PanicValue (Except String (Value P μ)) :=
  if hasPrefix argsType Marshal then pure (.ok (.bytes args))
  else if hasPrefix argsType Proto then pure (.ok (.bytes args))
  else if argsType = NULL then pure (.ok .nil)
  else if argsType = STRING then pure (.ok (.string args))
  else if argsType = BOOL then do pure (.ok (.bool (← bytesToBool args)))
  else if argsType = INT then do pure (.ok (.int32 (← bytesToInt32 args)))
  else if argsType = LONG then do pure (.ok (.int64 (← bytesToInt64 args)))
  else if argsType = FLOAT then do pure (.ok (.float32 (← bytesToFloat32 args)))
  else if argsType = DOUBLE then do pure (.ok (.float64 (← bytesToFloat64 args)))
  else if argsType = BYTES then pure (.ok (.bytes args))
  else if argsType = MAP then pure ((app.jsonMap.decode args).map .map)
  else if argsType = MAPSTR then pure ((app.jsonMapStr.decode args).map .mapStr)
  else if argsType = TRACE then
    pure ((app.unmarshalTrace args).map fun trace => .tracePtr (some (trace.extractSpan app.generateID)))
  else deserializeWith argsType args app.serializers

/-! ## Round trip -/

section RoundTrip

variable {app app' : App P μ}

/-- `nil`, or a value of a basic type, a slice of bytes or a `map[string]string`. -/
def Value.Plain : Value P μ → Prop
  | .map _ | .trace _ | .tracePtr _ | .pointer _ _ | .other _ => False
  | _ => True

/-- The receiver finds the decoder of a tag behind the two prefixes and the tags before it. -/
theorem bytes2Args_bool (args : List UInt8) :
    bytes2Args app BOOL args = (do pure (.ok (.bool (← bytesToBool args)))) := rfl

theorem bytes2Args_int (args : List UInt8) :
    bytes2Args app INT args = (do pure (.ok (.int32 (← bytesToInt32 args)))) := rfl

theorem bytes2Args_long (args : List UInt8) :
    bytes2Args app LONG args = (do pure (.ok (.int64 (← bytesToInt64 args)))) := rfl

theorem bytes2Args_float (args : List UInt8) :
    bytes2Args app FLOAT args = (do pure (.ok (.float32 (← bytesToFloat32 args)))) := rfl

theorem bytes2Args_double (args : List UInt8) :
    bytes2Args app DOUBLE args = (do pure (.ok (.float64 (← bytesToFloat64 args)))) := rfl

theorem bytes2Args_mapstr (args : List UInt8) :
    bytes2Args app MAPSTR args = pure ((app.jsonMapStr.decode args).map .mapStr) := rfl

/-- The tag and the bytes of a plain value. -/
def Value.wire (app : App P μ) : Value P μ → String × List UInt8
  | .string s => (STRING, s)
  | .bool b => (BOOL, boolToBytes b)
  | .int32 i => (INT, int32ToBytes i)
  | .int64 i => (LONG, int64ToBytes i)
  | .float32 bits => (FLOAT, float32ToBytes bits)
  | .float64 bits => (DOUBLE, float64ToBytes bits)
  | .bytes b => (BYTES, b)
  | .mapStr m => (MAPSTR, app.jsonMapStr.bytes m)
  | .nil | .map _ | .trace _ | .tracePtr _ | .pointer _ _ | .other _ => (NULL, [])

/-- The map of a value goes through JSON. -/
def Value.MapRoundTrips (app : App P μ) : Value P μ → Prop
  | .mapStr m => app.jsonMapStr.RoundTrips m
  | _ => True

theorem argsTypeAnd2Bytes_wire {arg : Value P μ} (harg : arg.Plain) (hmap : arg.MapRoundTrips app) :
    argsTypeAnd2Bytes app arg = .ok (.ok (arg.wire app)) := by
  cases arg with
  | mapStr m =>
    change (pure ((app.jsonMapStr.encode m).map fun bytes => (MAPSTR, bytes)) : Except PanicValue _) = _
    rw [ByteCodec.RoundTrips.encode_eq hmap]
    rfl
  | map m | trace t | tracePtr t | pointer t v | other typeName => exact harg.elim
  | nil | string s | bytes b | bool b | int32 i | int64 i | float32 bits | float64 bits => rfl

theorem bytes2Args_wire {arg : Value P μ} (harg : arg.Plain) (hmap : arg.MapRoundTrips app)
    (hjson : app'.jsonMapStr = app.jsonMapStr) :
    bytes2Args app' (arg.wire app).1 (arg.wire app).2 = .ok (.ok arg) := by
  cases arg with
  | nil =>
    change bytes2Args app' NULL [] = _
    rfl
  | string s =>
    change bytes2Args app' STRING s = _
    rfl
  | bytes b =>
    change bytes2Args app' BYTES b = _
    rfl
  | bool b =>
    change bytes2Args app' BOOL (boolToBytes b) = _
    rw [bytes2Args_bool, bytesToBool_boolToBytes]
    rfl
  | int32 i =>
    change bytes2Args app' INT (int32ToBytes i) = _
    rw [bytes2Args_int, bytesToInt32_int32ToBytes]
    rfl
  | int64 i =>
    change bytes2Args app' LONG (int64ToBytes i) = _
    rw [bytes2Args_long, bytesToInt64_int64ToBytes]
    rfl
  | float32 bits =>
    change bytes2Args app' FLOAT (float32ToBytes bits) = _
    rw [bytes2Args_float, bytesToFloat32_float32ToBytes]
    rfl
  | float64 bits =>
    change bytes2Args app' DOUBLE (float64ToBytes bits) = _
    rw [bytes2Args_double, bytesToFloat64_float64ToBytes]
    rfl
  | mapStr m =>
    change bytes2Args app' MAPSTR (app.jsonMapStr.bytes m) = _
    rw [bytes2Args_mapstr, hjson, ByteCodec.RoundTrips.decode_bytes hmap]
    rfl
  | map m | trace t | tracePtr t | pointer t v | other typeName => exact harg.elim

/-- **Round trip**: a plain value is encoded, and decoded to itself, whatever the serializers of the two
applications are. -/
theorem bytes2Args_argsTypeAnd2Bytes (arg : Value P μ) (harg : arg.Plain)
    (hjson : app'.jsonMapStr = app.jsonMapStr)
    (hmap : ∀ m, arg = .mapStr m → app.jsonMapStr.RoundTrips m) :
    ∃ argsType args, argsTypeAnd2Bytes app arg = .ok (.ok (argsType, args)) ∧
      bytes2Args app' argsType args = .ok (.ok arg) := by
  cases arg with
  | nil => exact ⟨NULL, [], rfl, rfl⟩
  | string s => exact ⟨STRING, s, rfl, rfl⟩
  | bytes b => exact ⟨BYTES, b, rfl, rfl⟩
  | bool b =>
    refine ⟨BOOL, boolToBytes b, rfl, ?_⟩
    rw [bytes2Args_bool, bytesToBool_boolToBytes]
    rfl
  | int32 i =>
    refine ⟨INT, int32ToBytes i, rfl, ?_⟩
    rw [bytes2Args_int, bytesToInt32_int32ToBytes]
    rfl
  | int64 i =>
    refine ⟨LONG, int64ToBytes i, rfl, ?_⟩
    rw [bytes2Args_long, bytesToInt64_int64ToBytes]
    rfl
  | float32 bits =>
    refine ⟨FLOAT, float32ToBytes bits, rfl, ?_⟩
    rw [bytes2Args_float, bytesToFloat32_float32ToBytes]
    rfl
  | float64 bits =>
    refine ⟨DOUBLE, float64ToBytes bits, rfl, ?_⟩
    rw [bytes2Args_double, bytesToFloat64_float64ToBytes]
    rfl
  | mapStr m =>
    have hm : app.jsonMapStr.RoundTrips m := hmap m rfl
    refine ⟨MAPSTR, app.jsonMapStr.bytes m, ?_, ?_⟩
    · unfold argsTypeAnd2Bytes
      dsimp only
      rw [hm.encode_eq]
      rfl
    · rw [bytes2Args_mapstr, hjson, hm.decode_bytes]
      rfl
  | map m | trace t | tracePtr t | pointer t v | other typeName => exact harg.elim

/-! An application with a serializer that takes every value, and the text of one map. -/

def noPointers : Pointers Empty where
  Val _ := Unit
  typeName := nofun
  marshaler := nofun
  message := nofun

def sampleMap : Registry.Metadata := Finmap.singleton "a" "b"

def sampleJson : List UInt8 := [0x7b, 0x22, 0x61, 0x22, 0x3a, 0x22, 0x62, 0x22, 0x7d]

def sampleApp : App noPointers Unit where
  serializers := [⟨fun _ => .ok (.ok ("any", [])), fun _ _ => .ok (.ok .nil)⟩]
  jsonMap := ⟨fun _ => .error "", fun _ => .error ""⟩
  jsonMapStr :=
    { encode m := if m = some sampleMap then .ok sampleJson else .error ""
      decode bs := if bs = sampleJson then .ok (some sampleMap) else .error "" }
  marshalTrace _ := .error ""
  unmarshalTrace _ := .error ""
  generateID := "id"

theorem bytes2Args_argsTypeAnd2Bytes_sample :
    ∃ argsType args,
      argsTypeAnd2Bytes sampleApp (.mapStr (some sampleMap)) = .ok (.ok (argsType, args)) ∧
      bytes2Args sampleApp argsType args = .ok (.ok (.mapStr (some sampleMap))) := by
  refine bytes2Args_argsTypeAnd2Bytes _ trivial rfl fun m hm => ?_
  obtain rfl : some sampleMap = m := Value.mapStr.inj hm
  exact ⟨sampleJson, by simp [sampleApp], by simp [sampleApp]⟩

end RoundTrip

end Vmqant.Rpc.ArgsUtil
