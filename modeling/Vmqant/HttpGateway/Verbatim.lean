import Vmqant.HttpGateway.Errors
import Vmqant.Rpc.Reply

/-!
# The errors that arrive at the gateway

Reference: `httpgateway/api.go`, lines 38-52; `rpc/reply.go`, lines 255-267.

A handler returns an error made by `errors.New`. Its text is the error of the result, `mqrpc.Proto` makes an
error of it again, and `ServeHTTP` parses the text of that one.
-/

namespace Vmqant.HttpGateway

open Rpc.ArgsUtil (Pointers Value noPointers)
open Rpc.Reply (Target Verbatim)
open Printf (ascii)

variable {κ μ α : Type} {P : Pointers κ} {unmarshal : Unmarshal} {id detail : List UInt8} {code : Int32}

/-- `Parse` recovers the error from the one that `Proto` returns. -/
def Recovers (P : Pointers κ) (μ α : Type) (unmarshal : Unmarshal) (id detail : List UInt8)
    (code : Int32) : Prop :=
  ∀ fmtV (rsp : Target α) (reply : Value P μ), ∃ text,
    Rpc.Reply.proto fmtV rsp reply (.string (Error.new id detail code).text) = .ok (.error text) ∧
      parse unmarshal text = Error.new id detail code

theorem text_ne_nil (e : Error) : e.text ≠ [] := by
  unfold Error.text
  simp [ascii]

theorem parse_text {e : Error} (hjson : unmarshal e.text = (e, true)) : parse unmarshal e.text = e := by
  unfold parse
  rw [hjson]

/-- An error whose text arrives is recovered. -/
theorem Verbatim.recovers (h : Verbatim P μ α (Error.new id detail code).text)
    (hjson : unmarshal (Error.new id detail code).text = (Error.new id detail code, true)) :
    Recovers P μ α unmarshal id detail code := fun fmtV rsp reply =>
  ⟨_, h.proto fmtV rsp reply, parse_text hjson⟩

/-- The answer of the gateway when the error is recovered. -/
theorem serveError_of_parse {err : List UInt8} {e : Error} (h : parse unmarshal err = e)
    (hcode : e.code ≠ 0) : serveError unmarshal err = (e.code.toInt, e.text) := by
  unfold serveError
  rw [h]
  dsimp only
  rw [if_neg hcode]

/-- **Remote errors**: a text arrives as it was if and only if it has no `%`; and the gateway gets the error
of a handler, word for word and recovered, if and only if neither the id nor the detail has one. -/
theorem errors_arrive_iff (P : Pointers κ) (μ α : Type) (unmarshal : Unmarshal) :
    (∀ e : List UInt8, e ≠ [] → (Verbatim P μ α e ↔ '%'.toUInt8 ∉ e)) ∧
    ∀ (id detail : List UInt8) (code : Int32),
      unmarshal (Error.new id detail code).text = (Error.new id detail code, true) →
      (Verbatim P μ α (Error.new id detail code).text ∧ Recovers P μ α unmarshal id detail code ↔
        '%'.toUInt8 ∉ id ∧ '%'.toUInt8 ∉ detail) := by
  refine ⟨fun e he => Rpc.Reply.verbatim_iff he, fun id detail code hjson => ?_⟩
  have hpercent : '%'.toUInt8 ∉ (Error.new id detail code).text ↔
      '%'.toUInt8 ∉ id ∧ '%'.toUInt8 ∉ detail := by
    rw [percent_mem_text, not_or]
  rw [← hpercent, ← Rpc.Reply.verbatim_iff (P := P) (μ := μ) (α := α) (text_ne_nil _)]
  exact ⟨And.left, fun h => ⟨h, Verbatim.recovers h hjson⟩⟩

/-- The error of a handler that finds nothing. -/
def notFound : Error := Error.new (ascii "go.micro.srv") (ascii "no such user") 404

/-- `json.Unmarshal`, as far as this error goes. -/
def sampleUnmarshal : Unmarshal := fun bs =>
  if bs = notFound.text then (notFound, true) else (⟨[], 0, [], []⟩, false)

theorem errors_arrive_sample :
    Verbatim noPointers Unit Unit (ascii "timeout") ∧ Verbatim noPointers Unit Unit notFound.text ∧
      Recovers noPointers Unit Unit sampleUnmarshal (ascii "go.micro.srv") (ascii "no such user") 404 := by
  obtain ⟨htext, herror⟩ := errors_arrive_iff noPointers Unit Unit sampleUnmarshal
  have hjson : sampleUnmarshal notFound.text = (notFound, true) := if_pos rfl
  have hnotFound := (herror (ascii "go.micro.srv") (ascii "no such user") 404 hjson).mpr
    ⟨by decide, by decide⟩
  exact ⟨(htext (ascii "timeout") (by decide)).mpr (by decide), hnotFound⟩

/-- A text that ends with `%`, and the one that arrives. -/
theorem not_verbatim_percent :
    Rpc.Reply.string (.nil : Value noPointers Unit) (.string (ascii "disk at 100%"))
      = .error (ascii "disk at 100%!(NOVERB)") ∧
    ¬ Verbatim noPointers Unit Unit (ascii "disk at 100%") := by
  have hprintf : Printf.doPrintf (ascii "disk at 100%") = ascii "disk at 100%!(NOVERB)" := by
    have hsplit : ascii "disk at 100%" = ascii "disk at 100" ++ ['%'.toUInt8] := rfl
    rw [hsplit, Printf.doPrintf_append (by decide), Printf.doPrintf_percent]
    have hdirective : Printf.directive [] = (Printf.noVerb, []) := rfl
    rw [hdirective, Printf.doPrintf]
    rfl
  have hcall := Rpc.Reply.callError_string (by decide : ascii "disk at 100%" ≠ [])
  rw [hprintf] at hcall
  have hstring : Rpc.Reply.string (.nil : Value noPointers Unit) (.string (ascii "disk at 100%"))
      = .error (ascii "disk at 100%!(NOVERB)") := Rpc.Reply.helper_of_callError hcall
  refine ⟨hstring, fun h => ?_⟩
  have heq := Except.error.inj (hstring.symm.trans (h.string .nil))
  exact absurd heq (by decide)

end Vmqant.HttpGateway
