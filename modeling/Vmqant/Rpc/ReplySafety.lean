import Vmqant.Rpc.ArgsUtil
import Vmqant.Rpc.NatsClient

/-!
# Replies that a peer makes up

Reference: `rpc/util/argsutil.go`, lines 136-189; `utils/params_bytes.go`, lines 36-95;
`rpc/base/rpc_client.go`, lines 68-106.

The tag and the bytes of a reply are what the peer has sent. The readers of numbers do not ask for the length
of the bytes, and nothing on the way to `CallArgs` recovers.
-/

namespace Vmqant.Rpc

open ArgsUtil Mqanttools

variable {κ μ : Type} {P : Pointers κ}

/-! ## The end of a call -/

/-- `CallArgs` from the end of the call to its return: `r` and `e`. -/
def selectReply (app : App P μ) : Outcome → Except PanicValue (Value P μ × String)
  | .clientClosed => pure (.nil, "AMQPClient is closed")
  | .failed err => pure (.nil, err)
  | .reply a => do
    match ← bytes2Args app a.info.resultType a.info.result with
    | .error err => pure (.nil, err)
    | .ok result => pure (result, a.info.error)
  | .chanClosed => pure (.nil, "client closed")
  | .deadline => pure (.nil, "deadline exceeded")

/-- `CallArgs` from the end of the call on. The deferred function calls `ClientRPChandler` when there is one,
and after a panic sees the results unset. It does not recover. -/
def callArgs (app : App P μ) (clientRPChandler : Option (Value P μ → String → Except PanicValue Unit))
    (o : Outcome) : Except PanicValue (Value P μ × String) :=
  let deferred (r : Value P μ) (e : String) : Except PanicValue Unit :=
    match clientRPChandler with
    | none => pure ()
    | some handler => handler r e
  match selectReply app o with
  | .ok (r, e) => do
    deferred r e
    pure (r, e)
  | .error v => do
    deferred .nil ""
    throw v

/-- Where the reply is decoded, this is the value that the system of `NatsClient` takes for the outcome. -/
theorem selectReply_eq_value {app : App P μ} {bytes2Args' : String → List UInt8 → Except String (Value P μ)}
    {o : Outcome}
    (h : ∀ a, o = .reply a →
      bytes2Args app a.info.resultType a.info.result
        = .ok (bytes2Args' a.info.resultType a.info.result)) :
    selectReply app o = .ok ((o.value bytes2Args').1.getD .nil, (o.value bytes2Args').2) := by
  cases o with
  | reply a =>
    unfold selectReply Outcome.value
    dsimp only
    rw [h a rfl]
    dsimp only [bind, Except.bind]
    cases bytes2Args' a.info.resultType a.info.result <;> rfl
  | clientClosed | failed err | chanClosed | deadline => rfl

/-! ## Replies that are too short -/

/-- The bytes that the reader of a tag looks at. -/
def width (resultType : String) : ℕ :=
  if resultType = BOOL then 1
  else if resultType = INT ∨ resultType = FLOAT then 4
  else if resultType = LONG ∨ resultType = DOUBLE then 8
  else 0

/-- A number whose bytes are missing. -/
def Short (resultType : String) (result : List UInt8) : Prop := result.length < width resultType

theorem firstBytes_returns_iff (n : ℕ) (buf : List UInt8) : (firstBytes n buf).Returns ↔ n ≤ buf.length := by
  unfold firstBytes
  by_cases hlen : buf.length < n
  · rw [if_pos hlen]
    exact iff_of_false (Except.not_returns_error _) (not_le.mpr hlen)
  · rw [if_neg hlen]
    exact iff_of_true (Except.returns_ok _) (not_lt.mp hlen)

/-- A reader that looks at the first bytes, and a value made of what it reads. -/
theorem reader_returns_iff {α β : Type} (n : ℕ) (buf : List UInt8) (read : List UInt8 → α) (value : α → β) :
    (do pure (value (← (do pure (read (← firstBytes n buf))))) : Except PanicValue β).Returns
      ↔ n ≤ buf.length := by
  rw [← firstBytes_returns_iff]
  exact (Except.returns_bind_iff_of_forall fun _ => Except.returns_ok _).trans
    (Except.returns_bind_iff_of_forall fun _ => Except.returns_ok _)

section Safe

variable {app : App P μ} {clientRPChandler : Option (Value P μ → String → Except PanicValue Unit)}

theorem deserializeWith_returns (argsType : String) (args : List UInt8)
    {serializers : List (RPCSerialize P μ)}
    (h : ∀ v ∈ serializers, ∀ argsType args, (v.deserialize argsType args).Returns) :
    (deserializeWith argsType args serializers).Returns := by
  induction serializers with
  | nil => exact Except.returns_ok _
  | cons v serializers ih =>
    obtain ⟨hv, hrest⟩ := List.forall_mem_cons.mp h
    obtain ⟨vk, hvk⟩ := hv argsType args
    unfold deserializeWith
    refine Except.returns_bind_iff.mpr ⟨vk, hvk, ?_⟩
    cases vk with
    | ok vk => exact Except.returns_ok _
    | error err => exact ih hrest

theorem bytes2Args_returns_iff
    (hser : ∀ v ∈ app.serializers, ∀ argsType args, (v.deserialize argsType args).Returns)
    (argsType : String) (args : List UInt8) :
    (bytes2Args app argsType args).Returns ↔ ¬Short argsType args := by
  rw [Short, not_lt]
  by_cases hbool : argsType = BOOL
  · subst hbool
    exact reader_returns_iff 1 args _ _
  by_cases hint : argsType = INT
  · subst hint
    exact reader_returns_iff 4 args _ _
  by_cases hlong : argsType = LONG
  · subst hlong
    exact reader_returns_iff 8 args _ _
  by_cases hfloat : argsType = FLOAT
  · subst hfloat
    exact reader_returns_iff 4 args _ _
  by_cases hdouble : argsType = DOUBLE
  · subst hdouble
    exact reader_returns_iff 8 args _ _
  -- no other case looks at a byte by its index
  have hwidth : width argsType = 0 := by
    rw [width, if_neg hbool, if_neg (not_or.mpr ⟨hint, hfloat⟩), if_neg (not_or.mpr ⟨hlong, hdouble⟩)]
  rw [hwidth]
  refine iff_of_true ?_ (Nat.zero_le _)
  unfold bytes2Args
  rw [if_neg hbool, if_neg hint, if_neg hlong, if_neg hfloat, if_neg hdouble]
  have hdefault := deserializeWith_returns argsType args hser
  split_ifs
  all_goals first | exact hdefault | exact Except.returns_ok _

theorem selectReply_returns_iff
    (hser : ∀ v ∈ app.serializers, ∀ argsType args, (v.deserialize argsType args).Returns) (o : Outcome) :
    (selectReply app o).Returns
      ↔ ∀ a, o = .reply a → ¬Short a.info.resultType a.info.result := by
  cases o with
  | reply a =>
    have hdecode : (selectReply app (.reply a)).Returns
        ↔ (bytes2Args app a.info.resultType a.info.result).Returns := by
      refine Except.returns_bind_iff_of_forall fun result => ?_
      cases result <;> exact Except.returns_ok _
    rw [hdecode, bytes2Args_returns_iff hser]
    exact ⟨fun h a' ha' => Outcome.reply.inj ha' ▸ h, fun h => h a rfl⟩
  | clientClosed | failed err | chanClosed | deadline => exact iff_of_true (Except.returns_ok _) nofun

/-- The deferred function neither makes a panic nor stops one. -/
theorem callArgs_returns_iff
    (hhandler : ∀ handler ∈ clientRPChandler, ∀ r e, (handler r e).Returns) (o : Outcome) :
    (callArgs app clientRPChandler o).Returns ↔ (selectReply app o).Returns := by
  have hdeferred : ∀ r e, Except.Returns (match clientRPChandler with
      | none => pure ()
      | some handler => handler r e) := by
    intro r e
    cases clientRPChandler with
    | none => exact Except.returns_ok _
    | some handler => exact hhandler handler rfl r e
  unfold callArgs
  cases hselect : selectReply app o with
  | ok re =>
    obtain ⟨r, e⟩ := re
    refine iff_of_true ?_ (Except.returns_ok _)
    exact (Except.returns_bind_iff_of_forall fun _ => Except.returns_ok _).mpr (hdeferred r e)
  | error v =>
    refine iff_of_false ?_ (Except.not_returns_error v)
    rw [Except.returns_bind_iff]
    rintro ⟨_, -, h⟩
    exact Except.not_returns_error v h

/-- `Bytes2Args` returns if and only if the bytes are not too short for the tag, and so does `CallArgs`,
however its call has ended. -/
theorem reply_safe_iff
    (hser : ∀ v ∈ app.serializers, ∀ argsType args, (v.deserialize argsType args).Returns)
    (hhandler : ∀ handler ∈ clientRPChandler, ∀ r e, (handler r e).Returns) :
    (∀ argsType args, (bytes2Args app argsType args).Returns ↔ ¬Short argsType args) ∧
      ∀ o, (callArgs app clientRPChandler o).Returns
        ↔ ∀ a, o = .reply a → ¬Short a.info.resultType a.info.result :=
  ⟨bytes2Args_returns_iff hser, fun o =>
    (callArgs_returns_iff hhandler o).trans (selectReply_returns_iff hser o)⟩

theorem reply_safe_iff_sample :
    (∀ argsType args, (bytes2Args sampleApp argsType args).Returns ↔ ¬Short argsType args) ∧
      ∀ o, (callArgs sampleApp (some fun _ _ => .ok ()) o).Returns
        ↔ ∀ a, o = .reply a → ¬Short a.info.resultType a.info.result := by
  refine reply_safe_iff ?_ ?_
  · intro v hv argsType args
    obtain rfl := List.mem_singleton.mp hv
    exact Except.returns_ok _
  · intro handler hhandler r e
    obtain rfl := Option.some.inj hhandler
    exact Except.returns_ok _

/-- A reply with the tag of an `int32` and no bytes. -/
def noBytes : Outcome := .reply ⟨0, { cid := "c", error := "", resultType := INT, result := [] }⟩

/-- The caller does not get it. -/
theorem noBytes_panics :
    bytes2Args sampleApp INT [] = .error (.indexOutOfRange 3 0) ∧
      callArgs sampleApp none noBytes = .error (.indexOutOfRange 3 0) :=
  ⟨rfl, rfl⟩

end Safe

end Vmqant.Rpc
