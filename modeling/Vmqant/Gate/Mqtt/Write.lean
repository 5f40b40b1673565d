import Vmqant.Gate.Mqtt.Pack

/-!
# `DelayWritePack`

Reference: `gate/base/mqtt/mqtt.go`, lines 650-855.

The encoder writes to a `Sink`, which may start to fail after any number of bytes. A Go panic (a
failed type assertion on `pack.variable`, a nil topic name, an index past the four bytes of
`getRemainingLength`) is an error of its own, since `PackQueue.WritePack` recovers it.
-/

namespace Vmqant.Mqtt

open ByteStream

/-- How `DelayWritePack` ends without writing the pack. -/
inductive WriteErr where
  | io
  | nilPointer
  | panic
deriving DecidableEq, Repr

/-- The digits `getRemainingLength` stores while there is room left in its buffer. -/
def remainingDigits : (room : ℕ) → ℕ → Option (List UInt8)
  | 0, _ => none
  | room + 1, length =>
    let digit := length % 128
    let length := length / 128
    if length > 0 then (remainingDigits room length).map (UInt8.ofNat (digit ||| 128) :: ·)
    else some [UInt8.ofNat digit]

/-- `getRemainingLength`; `none` is the panic at `b[4]`. -/
def getRemainingLength (length : ℕ) : Option (List UInt8) := remainingDigits 4 length

/-- `writeFull`: one `Write` for a non-empty slice, none for an empty one. -/
def writeFull (b : List UInt8) : SinkM WriteErr Unit :=
  if b.isEmpty then pure () else write .io b

/-- `w.WriteByte`. -/
def writeByte (b : UInt8) : SinkM WriteErr Unit := write .io [b]

/-- `writeInt(w, i, 2)`. -/
def writeInt (i : ℕ) : SinkM WriteErr Unit := writeFull (putUint16 i)

/-- `writeString`; `s == nil` is an error. -/
def writeString (s : Option GoString) : SinkM WriteErr Unit :=
  match s with
  | none => throw .nilPointer
  | some data => do
    writeInt data.length
    writeFull data

/-- `writeFull(w, getRemainingLength(length))`. -/
def writeLength (length : ℕ) : SinkM WriteErr Unit :=
  match getRemainingLength length with
  | none => throw .panic
  | some b => writeFull b

/-- `w.WriteByte(getRemainingLength(length)[0])`: the first digit only. -/
def writeLength0 (length : ℕ) : SinkM WriteErr Unit :=
  match getRemainingLength length with
  | some (b :: _) => writeByte b
  | _ => throw .panic

/-! ## The cases of the `switch` -/

/-- `case PUBLISH`. A nil topic name panics where its length is taken. -/
def writePublish (qos : UInt8) (pub : Publish) : SinkM WriteErr Unit :=
  match pub.topicName with
  | none => throw .panic
  | some topic => do
    writeLength ((if qos > 0 then 4 else 2) + topic.length + pub.msg.length)
    writeString (some topic)
    if qos > 0 then writeInt pub.mid
    writeFull pub.msg

/-- `case PUBACK`, `PUBREC`, `PUBREL`, `PUBCOMP` and `UNSUBACK`: a message id. -/
def writeMid (mid : ℕ) : SinkM WriteErr Unit := do
  writeLength0 2
  writeInt mid

/-- `case SUBACK`. -/
def writeSuback (ack : Suback) : SinkM WriteErr Unit := do
  writeLength0 3
  writeInt ack.mid
  writeByte ack.qos

/-- `case SUBSCRIBE`. The length it declares leaves out the two bytes of the message id. -/
def writeSubscribe (sub : Subscribe) : SinkM WriteErr Unit := do
  writeLength0 (sub.topics.foldl (fun tnum top => tnum + 2 + top.name.length + 1) 0)
  writeInt sub.mid
  sub.topics.forM fun top => do
    writeInt top.name.length
    writeFull top.name
    writeByte top.qos

/-- `case UNSUBSCRIBE`. -/
def writeUNSubscribe (sub : UNSubscribe) : SinkM WriteErr Unit := do
  writeLength0 (sub.topics.foldl (fun tnum top => tnum + 2 + top.name.length) 0)
  writeInt sub.mid
  sub.topics.forM fun top => do
    writeInt top.name.length
    writeFull top.name

/-- The `switch` over the packet type; the type assertion of a case panics on another variable, and
a type without a case writes nothing after the first byte. -/
def writeVariable (pack : Pack) : SinkM WriteErr Unit :=
  if pack.msgType = CONNACK then
    match pack.variable_ with
    | .connack ack => do
      writeLength0 2
      writeFull [ack.reserved, ack.returnCode]
    | _ => throw .panic
  else if pack.msgType = PUBLISH then
    match pack.variable_ with
    | .publish pub => writePublish pack.qosLevel pub
    | _ => throw .panic
  else if pack.msgType = PUBACK ∨ pack.msgType = PUBREC ∨ pack.msgType = PUBREL ∨
      pack.msgType = PUBCOMP then
    match pack.variable_ with
    | .puback ack => writeMid ack.mid
    | _ => throw .panic
  else if pack.msgType = SUBSCRIBE then
    match pack.variable_ with
    | .subscribe sub => writeSubscribe sub
    | _ => throw .panic
  else if pack.msgType = SUBACK then
    match pack.variable_ with
    | .suback ack => writeSuback ack
    | _ => throw .panic
  else if pack.msgType = UNSUBSCRIBE then
    match pack.variable_ with
    | .unsubscribe sub => writeUNSubscribe sub
    | _ => throw .panic
  else if pack.msgType = UNSUBACK then
    match pack.variable_ with
    | .unsuback ack => writeMid ack.mid
    | _ => throw .panic
  else if pack.msgType = PINGRESP then writeByte 0
  else pure ()

/-- `DelayWritePack(pack, w)`. -/
def delayWritePack (pack : Pack) : SinkM WriteErr Unit := do
  writeByte (pack.msgType <<< 4 ||| pack.dupFlag <<< 3 ||| pack.qosLevel <<< 1)
  writeVariable pack

end Vmqant.Mqtt
