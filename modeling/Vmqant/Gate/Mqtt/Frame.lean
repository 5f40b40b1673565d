import Vmqant.Gate.Mqtt.RoundTrip

/-!
# The frames of the encoder

Reference: `gate/base/mqtt/mqtt.go`, lines 650-952.

`DelayWritePack` makes several calls of its writer for one pack. `Pack.pieces` are the bytes of these calls,
for the packs of all constructors, and `delayWritePack_eq` says that the encoder makes no other calls. The
pieces add up to a complete frame.
-/

namespace Vmqant.Mqtt

open ByteStream

/-- A complete frame: the first byte, the remaining length, and as many bytes. -/
def IsFrame (bs : List UInt8) : Prop :=
  ∃ fixed body, bs = fixed :: (VarInt.encode body.length ++ body) ∧ body.length < 2 ^ 28

/-- The packs of the constructors, with all arguments. -/
inductive Made : Pack → Prop where
  | connAck (returnCode : UInt8) : Made (getConnAckPack returnCode)
  | pub (qos dup : UInt8) (mid : ℕ) (topic : GoString) (msg : List UInt8) :
      Made (getPubPack qos dup mid topic msg)
  | pubAck (mid : ℕ) : Made (getPubAckPack mid)
  | pubREC (mid : ℕ) : Made (getPubRECPack mid)
  | pubREL (mid : ℕ) : Made (getPubRELPack mid)
  | pubCOMP (mid : ℕ) : Made (getPubCOMPPack mid)
  | subAck (mid : ℕ) : Made (getSubAckPack mid)
  | unSubAck (mid : ℕ) : Made (getUNSubAckPack mid)
  | pingResp (qos dup : UInt8) : Made (getPingResp qos dup)

/-- The pieces of the variable header and the payload. -/
def Pack.bodyPieces (p : Pack) : List (List UInt8) :=
  match p.variable_ with
  | .connack ack => [[ack.reserved, ack.returnCode]]
  | .publish pub =>
    [putUint16 (pub.topicName.getD []).length, pub.topicName.getD [],
      if p.qosLevel > 0 then putUint16 pub.mid else [], pub.msg]
  | .puback ack => [putUint16 ack.mid]
  | .suback ack => [putUint16 ack.mid, [ack.qos]]
  | .unsuback ack => [putUint16 ack.mid]
  | _ => []

/-- The length of the body. -/
def Pack.bodyLength (p : Pack) : ℕ := p.bodyPieces.flatten.length

/-- What is given to the writer call by call; there is no call for an empty piece. -/
def Pack.pieces (p : Pack) : List (List UInt8) :=
  [p.fixedByte] :: (getRemainingLength p.bodyLength).getD [] :: p.bodyPieces

theorem pieces_eq {p : Pack} (h : p.bodyLength < 2 ^ 28) :
    p.pieces = [p.fixedByte] :: VarInt.encode p.bodyLength :: p.bodyPieces := by
  rw [Pack.pieces, getRemainingLength_eq (by simpa using h), Option.getD_some]

theorem isFrame_pieces {p : Pack} (h : p.bodyLength < 2 ^ 28) : IsFrame p.pieces.flatten := by
  rw [pieces_eq h]
  exact ⟨p.fixedByte, p.bodyPieces.flatten, rfl, h⟩

/-- Write the pieces one after another. -/
def writePieces (ps : List (List UInt8)) : SinkM WriteErr Unit := ps.forM writeFull

theorem writePieces_cons (b : List UInt8) (ps : List (List UInt8)) :
    writePieces (b :: ps) = writeFull b >>= fun _ => writePieces ps := rfl

theorem writePieces_singleton (b : List UInt8) : writePieces [b] = writeFull b := by
  show (writeFull b >>= fun _ => pure ()) = writeFull b
  exact bind_pure_unit

theorem writeLength_eq {n : ℕ} (h : n < 2 ^ 28) : writeLength n = writeFull (VarInt.encode n) := by
  rw [writeLength, getRemainingLength_eq (by simpa using h)]

theorem writeLength0_eq {n : ℕ} (h : n < 128) : writeLength0 n = writeFull (VarInt.encode n) := by
  rw [writeLength0, getRemainingLength_eq (by omega), VarInt.encode_of_lt h]
  rfl

/-- A short length and a piece. -/
theorem writeLength0_bind {n : ℕ} (h : n < 128) (b : List UInt8) :
    (writeLength0 n >>= fun _ => writeFull b) = writePieces [VarInt.encode n, b] := by
  rw [writeLength0_eq h, writePieces_cons, writePieces_singleton]

theorem bodyLength_getPubPack (qos dup : UInt8) (mid : ℕ) (topic : GoString) (msg : List UInt8) :
    (getPubPack qos dup mid topic msg).bodyLength
      = (if qos > 0 then 4 else 2) + topic.length + msg.length := by
  show (putUint16 topic.length ++ (topic ++
    ((if qos > 0 then putUint16 mid else []) ++ (msg ++ [])))).length = _
  rw [List.append_nil, length_pubPieces]

theorem writePublish_eq (qos dup : UInt8) (mid : ℕ) (topic : GoString) (msg : List UInt8)
    (h : (getPubPack qos dup mid topic msg).bodyLength < 2 ^ 28) :
    writePublish qos { topicName := some topic, mid, msg }
      = writePieces (VarInt.encode (getPubPack qos dup mid topic msg).bodyLength ::
          (getPubPack qos dup mid topic msg).bodyPieces) := by
  rw [bodyLength_getPubPack] at h ⊢
  have hbody : (getPubPack qos dup mid topic msg).bodyPieces
      = [putUint16 topic.length, topic, if qos > 0 then putUint16 mid else [], msg] := rfl
  have hstring : writeString (some topic)
      = writeFull (putUint16 topic.length) >>= fun _ => writeFull topic := rfl
  rw [hbody, writePublish]
  dsimp only
  rw [writeLength_eq h, hstring, writePieces_cons, writePieces_cons, writePieces_cons,
    writePieces_cons, writePieces_singleton, bind_assoc]
  by_cases hq : qos > 0
  · simp only [if_pos hq]
    rfl
  · simp only [if_neg hq]
    rfl

/-- **The calls of the encoder.** For a pack of a constructor whose body is shorter than `2 ^ 28` bytes,
`DelayWritePack` is the calls with its pieces: there is no panic, and no error but that of a call. -/
theorem delayWritePack_eq {p : Pack} (hp : Made p) (h : p.bodyLength < 2 ^ 28) :
    delayWritePack p = writePieces p.pieces := by
  have hfixed : delayWritePack p = writeFull [p.fixedByte] >>= fun _ => writeVariable p := rfl
  rw [hfixed, pieces_eq h, writePieces_cons]
  congr 1
  funext _
  cases hp with
  | connAck returnCode => exact writeLength0_bind (by decide) _
  | pub qos dup mid topic msg => exact writePublish_eq qos dup mid topic msg h
  | pubAck mid => exact writeLength0_bind (by decide) _
  | pubREC mid => exact writeLength0_bind (by decide) _
  | pubREL mid => exact writeLength0_bind (by decide) _
  | pubCOMP mid => exact writeLength0_bind (by decide) _
  | subAck mid =>
    show (writeLength0 3 >>= fun _ => writeInt mid >>= fun _ => writeByte 0)
      = writePieces [VarInt.encode 3, putUint16 mid, [0]]
    rw [writeLength0_eq (by decide), writePieces_cons, writePieces_cons, writePieces_singleton]
    rfl
  | unSubAck mid => exact writeLength0_bind (by decide) _
  | pingResp qos dup =>
    show writeByte 0 = writePieces [VarInt.encode 0]
    rw [writePieces_singleton, VarInt.encode_of_lt (by decide)]
    rfl

end Vmqant.Mqtt
