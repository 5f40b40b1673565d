import Vmqant.Common.Printf
import Vmqant.Rpc.ArgsUtil

/-!
# The reply helpers

Reference: `rpc/reply.go`.

A helper turns the result and the error of a call into a value or an error. It passes the text of an error
to `fmt.Errorf` as the format, so a text with a `%` is changed on its way; `verbatim_iff` says that no such
text arrives as it was.
-/

namespace Vmqant.Rpc.Reply

open ArgsUtil (Pointers Value)
open Printf (ascii)

variable {κ μ α : Type} {P : Pointers κ}

/-- The `err` of a call, as a type switch sees it. -/
inductive Err where
  | string (e : List UInt8)
  /-- An error that is not nil, with the text of its method `Error`. -/
  | error (text : List UInt8)
  /-- Another value, or nil. -/
  | other

/-- The type switch that all helpers start with: the text of the error that they return at once. -/
def callError : Err → Option (List UInt8)
  | .string e => if e ≠ [] then some (Printf.doPrintf e) else none
  | .error text => some text
  | .other => none

/-- `ErrNil`. -/
def errNil : List UInt8 := ascii "mqrpc: nil returned"

/-! ## Helpers for values -/

/-- A helper that takes the replies that `pick` takes; `name` is the one in its last error. -/
def helper (name : String) (pick : Value P μ → Option α) (reply : Value P μ) (err : Err) :
    Except (List UInt8) α :=
  match callError err with
  | some text => .error text
  | none =>
    match pick reply, reply with
    | some x, _ => .ok x
    | none, .nil => .error errNil
    | none, reply =>
      .error s!"mqrpc: unexpected type for {name}, got type {reply.typeName}".toUTF8.toList

/-- `Int`; an `int` has 64 bits. -/
def int (reply : Value P μ) (err : Err) : Except (List UInt8) Int64 :=
  helper "Int" (fun | .int64 x => some x | _ => none) reply err

def int64 (reply : Value P μ) (err : Err) : Except (List UInt8) Int64 :=
  helper "Int64" (fun | .int64 x => some x | _ => none) reply err

def float64 (reply : Value P μ) (err : Err) : Except (List UInt8) UInt64 :=
  helper "Float64" (fun | .float64 x => some x | _ => none) reply err

def string (reply : Value P μ) (err : Err) : Except (List UInt8) (List UInt8) :=
  helper "String" (fun | .string x => some x | _ => none) reply err

def bytes (reply : Value P μ) (err : Err) : Except (List UInt8) (List UInt8) :=
  helper "Bytes" (fun | .bytes x => some x | _ => none) reply err

def bool (reply : Value P μ) (err : Err) : Except (List UInt8) Bool :=
  helper "Bool" (fun | .bool x => some x | _ => none) reply err

def stringMap (reply : Value P μ) (err : Err) : Except (List UInt8) (Option Registry.Metadata) :=
  helper "Bool" (fun | .mapStr x => some x | _ => none) reply err

def interfaceMap (reply : Value P μ) (err : Err) : Except (List UInt8) μ :=
  helper "Bool" (fun | .map x => some x | _ => none) reply err

/-! ## Helpers that fill a value -/

/-- The `mrsp` of a call, as the helper sees it. -/
inductive Target (α : Type) where
  | nil
  | notPointer (typeName : String)
  /-- A pointer that does not implement the interface. -/
  | other (typeName : String)
  | target (unmarshal : List UInt8 → Except PanicValue (Except (List UInt8) α))

/-- A helper for the values of an interface; `fmtV` is the `%v` of a reply. -/
def filler (interface : String) (fmtV : Value P μ → String) (mrsp : Target α)
    (reply : Value P μ) (err : Err) : Except PanicValue (Except (List UInt8) α) :=
  match callError err with
  | some text => pure (.error text)
  | none =>
    match mrsp, reply with
    | .nil, _ => throw (.error "reflect: call of reflect.Value.Type on zero Value")
    | .notPointer type, _ =>
      pure (.error s!"mrsp [{type}] not *{interface} pointer type".toUTF8.toList)
    | .other type, _ => pure (.error s!"mrsp [{type}] not *{interface} type".toUTF8.toList)
    | .target unmarshal, .bytes r => unmarshal r
    | .target _, .nil => pure (.error errNil)
    | .target _, reply =>
      pure (.error
        s!"mqrpc: unexpected type for {fmtV reply}, got type {reply.typeName}".toUTF8.toList)

/-- `Marshal`, with what `ff` returns. -/
def marshal (fmtV : Value P μ → String) (mrsp : Target α) (reply : Value P μ) (err : Err) :
    Except PanicValue (Except (List UInt8) α) :=
  filler "mqrpc.marshaler" fmtV mrsp reply err

/-- `Proto`, with what `ff` returns. -/
def proto (fmtV : Value P μ → String) (mrsp : Target α) (reply : Value P μ) (err : Err) :
    Except PanicValue (Except (List UInt8) α) :=
  filler "proto.Message" fmtV mrsp reply err

/-! ## The text of an error -/

theorem helper_of_callError {name : String} {pick : Value P μ → Option α} {reply : Value P μ}
    {err : Err} {text : List UInt8} (h : callError err = some text) :
    helper name pick reply err = .error text := by
  unfold helper
  rw [h]

theorem filler_of_callError {interface : String} {fmtV : Value P μ → String} {mrsp : Target α}
    {reply : Value P μ} {err : Err} {text : List UInt8} (h : callError err = some text) :
    filler interface fmtV mrsp reply err = .ok (.error text) := by
  unfold filler
  rw [h]
  rfl

/-- Each helper returns an error with the text `e` when the call does. -/
structure Verbatim (P : Pointers κ) (μ α : Type) (e : List UInt8) : Prop where
  int : ∀ reply : Value P μ, int reply (.string e) = .error e
  int64 : ∀ reply : Value P μ, int64 reply (.string e) = .error e
  float64 : ∀ reply : Value P μ, float64 reply (.string e) = .error e
  string : ∀ reply : Value P μ, string reply (.string e) = .error e
  bytes : ∀ reply : Value P μ, bytes reply (.string e) = .error e
  bool : ∀ reply : Value P μ, bool reply (.string e) = .error e
  stringMap : ∀ reply : Value P μ, stringMap reply (.string e) = .error e
  interfaceMap : ∀ reply : Value P μ, interfaceMap reply (.string e) = .error e
  marshal : ∀ fmtV (mrsp : Target α) (reply : Value P μ),
    marshal fmtV mrsp reply (.string e) = .ok (.error e)
  proto : ∀ fmtV (mrsp : Target α) (reply : Value P μ),
    proto fmtV mrsp reply (.string e) = .ok (.error e)

theorem callError_string {e : List UInt8} (he : e ≠ []) :
    callError (.string e) = some (Printf.doPrintf e) := if_pos he

theorem verbatim_iff {e : List UInt8} (he : e ≠ []) : Verbatim P μ α e ↔ '%'.toUInt8 ∉ e := by
  rw [← Printf.doPrintf_eq_self_iff]
  have hcall := callError_string he
  constructor
  · intro h
    have hint := h.int .nil
    unfold int at hint
    rw [helper_of_callError hcall] at hint
    exact Except.error.inj hint
  · intro h
    rw [h] at hcall
    exact ⟨fun _ => helper_of_callError hcall, fun _ => helper_of_callError hcall,
      fun _ => helper_of_callError hcall, fun _ => helper_of_callError hcall,
      fun _ => helper_of_callError hcall, fun _ => helper_of_callError hcall,
      fun _ => helper_of_callError hcall, fun _ => helper_of_callError hcall,
      fun _ _ _ => filler_of_callError hcall, fun _ _ _ => filler_of_callError hcall⟩

end Vmqant.Rpc.Reply
