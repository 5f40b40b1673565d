import Vmqant.Gate.Mqtt.Pack

/-!
# `ReadPack`

Reference: `gate/base/mqtt/mqtt.go`, lines 279-641.

The decoder, case by case as in the source. A `break` out of the `switch` with `err` set is an
error of the reader; the callers drop the pack that Go returns beside a non-nil error. The topic
loops of `SUBSCRIBE` and `UNSUBSCRIBE` declare their own `err` with `:=`, so a failed read inside
them ends the loop and is not reported: `topicLoop` is total.
-/

namespace Vmqant.Mqtt

open ByteStream

/-- The errors `ReadPack` makes with `fmt.Errorf`, with the values it prints. -/
inductive PackErr where
  | outOfMaxLength (max : ℤ)
  | outOfRange (n : ℤ)
  | identifierRejected (n : ℕ)
  | lengthError (n : ℤ)
  | lengthErrorTopic (n : ℤ)
  | lengthErrorPublish (n : ℤ)
  | packLength (msgType : UInt8) (length want : ℕ)
deriving DecidableEq, Repr

/-- The text of the error. -/
def PackErr.error : PackErr → String
  | outOfMaxLength max => "pack out of max length:" ++ toString max
  | outOfRange n => "out of range:" ++ toString n
  | identifierRejected n => "Identifier Rejected length is:" ++ toString n
  | lengthError n => "length error : " ++ toString n
  | lengthErrorTopic n => "length error :" ++ toString n
  | lengthErrorPublish n => "length error publish :" ++ toString n
  | packLength t l w => "Pack(" ++ toString t ++ ") length(" ++ toString l ++ ") != " ++ toString w

/-- Parse the connect flags. -/
def parseFlags (b : UInt8) (flag : Connect) : Connect :=
  let flag := { flag with userName := flag.userName || b >>> 7 != 0 }
  let b := b &&& 127
  let flag := { flag with password := flag.password || b >>> 6 != 0 }
  let b := b &&& 63
  let flag := { flag with willRetain := flag.willRetain || b >>> 5 != 0 }
  let b := b &&& 31
  let flag := { flag with willQos := (b >>> 3).toNat }
  let b := b &&& 7
  let flag := { flag with willFlag := flag.willFlag || b >>> 2 != 0 }
  let b := b &&& 3
  let flag := { flag with cleanSession := flag.cleanSession || b >>> 1 != 0 }
  { flag with rserved := flag.rserved || b &&& 1 != 0 }

/-- `readInt(r, 2)`; the source calls it with no other length. -/
def readInt : Reader PackErr ℕ := do
  let buf ← readFull 2
  pure (uint16 buf)

/-- A length-prefixed string, with its length. -/
def readString : Reader PackErr (GoString × ℕ) := do
  let nn ← readInt
  if nn > 0 then
    let buf ← readFull nn
    pure (buf, nn)
  else
    pure ([], nn)

/-- The remaining-length loop. `left` is how many more bytes it may read, `4 - count_len` after the
increment at the top of the loop body; the multiplier is 128 times that of the round before. -/
def readLength (tempByte : UInt8) (multiplier length : ℕ) : (left : ℕ) → Reader PackErr ℕ
  | 0 => pure (length + (tempByte &&& 127).toNat * multiplier)
  | left + 1 =>
    if tempByte >>> 7 != 0 then do
      let next ← readByte
      readLength next (multiplier * 128) (length + (tempByte &&& 127).toNat * multiplier) left
    else
      pure (length + (tempByte &&& 127).toNat * multiplier)

/-! ## The cases of the `switch` -/

/-- `case CONNECT`, the will: topic and message, and what is left of `playload_len`. -/
def readWill (willFlag : Bool) (playloadLen : ℤ) :
    Reader PackErr (Option GoString × Option GoString × ℤ) :=
  if willFlag then do
    let (willTopic, n) ← readString
    let playloadLen := playloadLen - n
    if playloadLen < 0 then throw (.custom (.lengthError playloadLen))
    else
      let (willMsg, n) ← readString
      pure (some willTopic, some willMsg, playloadLen - n)
  else
    pure (none, none, playloadLen)

/-- The user name and the password: a string that is read when its flag is set and there is
payload left, and that must not exceed what is left. -/
def readCredential (flag : Bool) (playloadLen : ℤ) : Reader PackErr (Option GoString × ℤ) :=
  if flag && playloadLen > 0 then do
    let (s, n) ← readString
    let playloadLen := playloadLen - n
    if playloadLen < 0 then throw (.custom (.lengthError playloadLen))
    else pure (some s, playloadLen)
  else
    pure (none, playloadLen)

/-- `case CONNECT`, the payload. The check between the client identifier and the will,
`n < 1 && (conn.will_flag || conn.password || n < 0)`, is dead: `n` is at least 1 there. -/
def readConnectPayload (conn : Connect) (playloadLen : ℤ) : Reader PackErr Connect := do
  let (id, n) ← readString
  if n > 64 ∨ n < 1 then throw (.custom (.identifierRejected n))
  else
    let playloadLen := playloadLen - n
    if n < 1 ∧ (conn.willFlag ∨ conn.password ∨ n < 0) then
      throw (.custom (.lengthError playloadLen))
    else
      let (willTopic, willMsg, playloadLen) ← readWill conn.willFlag playloadLen
      let (uname, playloadLen) ← readCredential conn.userName playloadLen
      let (upassword, _) ← readCredential conn.password playloadLen
      pure { conn with id := some id, willTopic, willMsg, uname, upassword }

/-- `case CONNECT`. -/
def readConnect (length : ℕ) : Reader PackErr Connect := do
  let (protocol, n) ← readString
  if (n : ℤ) > length - 4 then throw (.custom (.outOfRange (length - n)))
  else
    let version ← readByte
    let flags ← readByte
    let keepAliveTimer ← readInt
    let conn := parseFlags flags { protocol := some protocol, version, keepAliveTimer }
    readConnectPayload conn (length - 2 - n - 4)

/-- `case PUBLISH`. -/
def readPublish (qos : UInt8) (length : ℕ) : Reader PackErr Publish := do
  let (topicName, n) ← readString
  let vlen : ℤ := length - n - 2
  if n < 1 then throw (.custom (.lengthErrorTopic vlen))
  else if qos > 0 then
    -- Read the msg id
    if vlen < 2 then throw (.custom (.lengthErrorPublish vlen))
    else
      let mid ← readInt
      if vlen - 2 ≤ 0 then pure { topicName := some topicName, mid }
      else
        let msg ← readFull (vlen - 2).toNat
        pure { topicName := some topicName, mid, msg }
  else if vlen ≤ 0 then pure { topicName := some topicName }
  else
    let msg ← readFull vlen.toNat
    pure { topicName := some topicName, msg }

/-- `case PUBACK`, `PUBREL`, `PUBREC` and `PUBCOMP`. -/
def readPuback (msgType : UInt8) (length : ℕ) : Reader PackErr Puback :=
  if length = 2 then do
    let mid ← readInt
    pure { mid }
  else throw (.custom (.packLength msgType length 2))

/-- `case SUBACK`. -/
def readSuback (msgType : UInt8) (length : ℕ) : Reader PackErr Suback :=
  if length = 3 then do
    let mid ← readInt
    let qos ← readByte
    pure { mid, qos }
  else throw (.custom (.packLength msgType length 3))

/-- `case UNSUBACK`; its error says 1 where the check says 2. -/
def readUNSuback (msgType : UInt8) (length : ℕ) : Reader PackErr UNSuback :=
  if length = 2 then do
    let mid ← readInt
    pure { mid }
  else throw (.custom (.packLength msgType length 1))

/-- The loop over a topic list: `entry` is one round, which gives the topic and the size of its
entry after the two bytes of its length, or leaves the loop. -/
def topicLoop (entry : List UInt8 → Option (Topics × ℕ) × List UInt8) (vlen : ℤ)
    (topics : List Topics) (s : List UInt8) : List Topics × List UInt8 :=
  if vlen > 3 then
    match entry s with
    | (none, s') => (topics, s')
    | (some (top, n), s') => topicLoop entry (vlen - 2 - n) (topics ++ [top]) s'
  else (topics, s)
termination_by vlen.toNat

/-- One round of `case SUBSCRIBE`. The error of the name is overwritten by that of the QoS byte,
and every error leaves the loop without reaching the `err` that `ReadPack` returns. -/
def readTopic (s : List UInt8) : Option (Topics × ℕ) × List UInt8 :=
  match readInt s with
  | .error _ s => (none, s)
  | .ok nlen s =>
    match (readByte : Reader PackErr UInt8) (s.drop nlen) with
    | .error _ s' => (none, s')
    | .ok tQos s' => (some ({ name := fillBuf nlen s, qos := tQos }, nlen + 1), s')

/-- `case SUBSCRIBE`; `vlen` starts at the whole length, the message id included. -/
def readSubscribe (length : ℕ) : Reader PackErr Subscribe := do
  let mid ← readInt
  let topics ← total (topicLoop readTopic length [])
  pure { mid, topics }

/-- One round of `case UNSUBSCRIBE`. No read follows that of the name, so a name cut off by the end
of the stream is kept as the zero-filled buffer. -/
def readUNTopic (s : List UInt8) : Option (Topics × ℕ) × List UInt8 :=
  match readInt s with
  | .error _ s => (none, s)
  | .ok nlen s => (some ({ name := fillBuf nlen s }, nlen), s.drop nlen)

/-- `case UNSUBSCRIBE`. -/
def readUNSubscribe (length : ℕ) : Reader PackErr UNSubscribe := do
  let mid ← readInt
  let topics ← total (topicLoop readUNTopic length [])
  pure { mid, topics }

/-- The `switch` over the packet type. The `default` case reads the rest of the frame. -/
def readVariable (msgType qos : UInt8) (length : ℕ) : Reader PackErr Variable :=
  if msgType = CONNECT then .connect <$> readConnect length
  else if msgType = PUBLISH then .publish <$> readPublish qos length
  else if msgType = PUBACK ∨ msgType = PUBREL ∨ msgType = PUBREC ∨ msgType = PUBCOMP then
    .puback <$> readPuback msgType length
  else if msgType = SUBSCRIBE then .subscribe <$> readSubscribe length
  else if msgType = SUBACK then .suback <$> readSuback msgType length
  else if msgType = UNSUBSCRIBE then .unsubscribe <$> readUNSubscribe length
  else if msgType = UNSUBACK then .unsuback <$> readUNSuback msgType length
  else if msgType = PINGREQ then pure .nil
  else if msgType = DISCONNECT then pure .nil
  else if length > 0 then do
    let _ ← readFull length
    pure .nil
  else pure .nil

/-- `ReadPack(r, max_pack_length)`. -/
def readPack (maxPackLength : ℤ) : Reader PackErr Pack := do
  let fixed ← readByte
  let msgType := fixed >>> 4
  let fixed := fixed &&& 15
  let dupFlag := fixed >>> 3
  let fixed := fixed &&& 7
  let qosLevel := fixed >>> 1
  let retain := fixed &&& 1
  let tempByte ← readByte
  let length ← readLength tempByte 1 0 2
  if (length : ℤ) > maxPackLength then throw (.custom (.outOfMaxLength maxPackLength))
  else
    let variable_ ← readVariable msgType qosLevel length
    pure { msgType, dupFlag, qosLevel, retain, length, variable_ }

/-- `n` calls of `ReadPack` on one reader. -/
def readPacks (maxPackLength : ℤ) (n : ℕ) : Reader PackErr (List Pack) :=
  readMany (readPack maxPackLength) n

end Vmqant.Mqtt
