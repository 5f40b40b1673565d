import Vmqant.Common.VarInt
import Vmqant.Gate.Mqtt.Pack

/-!
# The frames of an MQTT 3.1 client

The grammar the decoder is meant for, stated on its own: a `Frame` carries the well-formedness of
its fields, `Frame.encode` is its bytes on the wire, and `Frame.toPack` the pack that holds exactly
its fields. The optional fields of a CONNECT are `Option`s and its flags are derived from them, so
that the flags announce what is there.
-/

namespace Vmqant.Mqtt.Grammar

open ByteStream

/-- The literals of the small numbers below rest on these. -/
scoped instance neZero_three : NeZero 3 := ⟨by decide⟩

scoped instance neZero_four : NeZero 4 := ⟨by decide⟩

scoped instance neZero_sixteen : NeZero 16 := ⟨by decide⟩

/-- A string that fits its two-byte length prefix. -/
structure MqttString where
  bytes : GoString
  short : bytes.length < 65536

/-- The length prefix and the bytes. -/
def MqttString.encode (s : MqttString) : List UInt8 := putUint16 s.bytes.length ++ s.bytes

/-- The low half of the fixed header. -/
structure FixedFlags where
  dup : Bool
  qos : Fin 4
  retain : Bool

/-- The first byte of a frame of type `msgType`. -/
def FixedFlags.byte (f : FixedFlags) (msgType : Fin 16) : UInt8 :=
  UInt8.ofNat (16 * msgType + 8 * f.dup.toNat + 2 * f.qos + f.retain.toNat)

/-- The variable header and payload of a CONNECT. -/
structure ConnectBody where
  protocol : MqttString
  version : UInt8
  willRetain : Bool
  willQos : Fin 4
  cleanSession : Bool
  reserved : Bool
  keepAlive : UInt16
  id : MqttString
  id_pos : 1 ≤ id.bytes.length
  id_le : id.bytes.length ≤ 64
  /-- The will topic and the will message. -/
  will : Option (MqttString × MqttString)
  userName : Option MqttString
  password : Option MqttString

/-- The connect flags, from the user name in the top bit down to the reserved bit. -/
def ConnectBody.flags (c : ConnectBody) : UInt8 :=
  UInt8.ofNat (128 * c.userName.isSome.toNat + 64 * c.password.isSome.toNat +
    32 * c.willRetain.toNat + 8 * c.willQos + 4 * c.will.isSome.toNat +
    2 * c.cleanSession.toNat + c.reserved.toNat)

/-- A field that is there or not. -/
def encodeOption (s : Option MqttString) : List UInt8 := (s.map MqttString.encode).getD []

def encodeWill (w : Option (MqttString × MqttString)) : List UInt8 :=
  (w.map fun p => p.1.encode ++ p.2.encode).getD []

def ConnectBody.encode (c : ConnectBody) : List UInt8 :=
  c.protocol.encode ++ ([c.version] ++ ([c.flags] ++ (putUint16 c.keepAlive.toNat ++
    (c.id.encode ++ (encodeWill c.will ++ (encodeOption c.userName ++
      encodeOption c.password))))))

/-- The fields of a CONNECT as the pack holds them. -/
def ConnectBody.toConnect (c : ConnectBody) : Connect where
  protocol := some c.protocol.bytes
  version := c.version
  keepAliveTimer := c.keepAlive.toNat
  userName := c.userName.isSome
  password := c.password.isSome
  willRetain := c.willRetain
  willQos := c.willQos
  willFlag := c.will.isSome
  cleanSession := c.cleanSession
  rserved := c.reserved
  id := some c.id.bytes
  willTopic := c.will.map (·.1.bytes)
  willMsg := c.will.map (·.2.bytes)
  uname := c.userName.map (·.bytes)
  upassword := c.password.map (·.bytes)

/-- A PUBLISH; the message id is on the wire at QoS 1 and 2 only. -/
structure PublishBody where
  topic : MqttString
  topic_pos : 1 ≤ topic.bytes.length
  mid : UInt16
  payload : List UInt8

def PublishBody.encode (p : PublishBody) (qos : Fin 3) : List UInt8 :=
  p.topic.encode ++ ((if qos = 0 then [] else putUint16 p.mid.toNat) ++ p.payload)

def PublishBody.toPublish (p : PublishBody) (qos : Fin 3) : Publish where
  topicName := some p.topic.bytes
  mid := if qos = 0 then 0 else p.mid.toNat
  msg := p.payload

/-- The four acknowledgements that carry nothing but a message id. -/
inductive AckKind where
  | puback | pubrec | pubrel | pubcomp

def AckKind.msgType : AckKind → Fin 16
  | puback => 4
  | pubrec => 5
  | pubrel => 6
  | pubcomp => 7

/-- A topic of a SUBSCRIBE with its QoS byte. -/
def encodeTopic (t : MqttString × UInt8) : List UInt8 := t.1.encode ++ [t.2]

/-- A well-formed frame of a client. -/
inductive Frame where
  | connect (f : FixedFlags) (c : ConnectBody)
  | publish (dup retain : Bool) (qos : Fin 3) (p : PublishBody)
  | ack (kind : AckKind) (f : FixedFlags) (mid : UInt16)
  | subscribe (f : FixedFlags) (mid : UInt16) (topics : List (MqttString × UInt8))
  | unsubscribe (f : FixedFlags) (mid : UInt16) (topics : List MqttString)
  | pingreq (f : FixedFlags)
  | disconnect (f : FixedFlags)

namespace Frame

def msgType : Frame → Fin 16
  | connect _ _ => 1
  | publish _ _ _ _ => 3
  | ack kind _ _ => kind.msgType
  | subscribe _ _ _ => 8
  | unsubscribe _ _ _ => 10
  | pingreq _ => 12
  | disconnect _ => 14

def fixedFlags : Frame → FixedFlags
  | publish dup retain qos _ => ⟨dup, qos.castSucc, retain⟩
  | connect f _ | ack _ f _ | subscribe f _ _ | unsubscribe f _ _ | pingreq f | disconnect f => f

/-- The variable header and the payload. -/
def body : Frame → List UInt8
  | connect _ c => c.encode
  | publish _ _ qos p => p.encode qos
  | ack _ _ mid => putUint16 mid.toNat
  | subscribe _ mid topics => putUint16 mid.toNat ++ topics.flatMap encodeTopic
  | unsubscribe _ mid topics => putUint16 mid.toNat ++ topics.flatMap MqttString.encode
  | pingreq _ | disconnect _ => []

/-- The declared remaining length. -/
def remainingLength (f : Frame) : ℕ := f.body.length

/-- The frame on the wire: fixed header, remaining length, variable header and payload. -/
def encode (f : Frame) : List UInt8 :=
  [f.fixedFlags.byte f.msgType] ++ (VarInt.encode f.remainingLength ++ f.body)

/-- What the variable header and the payload say. -/
def fields : Frame → Variable
  | connect _ c => .connect c.toConnect
  | publish _ _ qos p => .publish (p.toPublish qos)
  | ack _ _ mid => .puback { mid := mid.toNat }
  | subscribe _ mid topics =>
    .subscribe { mid := mid.toNat, topics := topics.map fun t => { name := t.1.bytes, qos := t.2 } }
  | unsubscribe _ mid topics =>
    .unsubscribe { mid := mid.toNat, topics := topics.map fun t => { name := t.bytes } }
  | pingreq _ | disconnect _ => .nil

/-- The pack that holds exactly the fields of the frame. -/
def toPack (f : Frame) : Pack where
  msgType := UInt8.ofNat f.msgType
  dupFlag := UInt8.ofNat f.fixedFlags.dup.toNat
  qosLevel := UInt8.ofNat f.fixedFlags.qos
  retain := UInt8.ofNat f.fixedFlags.retain.toNat
  length := f.remainingLength
  variable_ := f.fields

end Frame

end Vmqant.Mqtt.Grammar
