import Vmqant.Common.ByteStream

/-!
# MQTT packs

Reference: `gate/base/mqtt/mqtt.go`, lines 26-277 and 857-952.

The data model of the codec. A Go string is its bytes, a `*string` is an `Option` of them, and the
dynamic type behind `Pack.variable` is the constructor of `Variable`.
-/

namespace Vmqant.Mqtt

/-- A Go string: any sequence of bytes. -/
abbrev GoString := List UInt8

/-! ## Packet types -/

def CONNECT : UInt8 := 1
def CONNACK : UInt8 := 2
def PUBLISH : UInt8 := 3
def PUBACK : UInt8 := 4
def PUBREC : UInt8 := 5
def PUBREL : UInt8 := 6
def PUBCOMP : UInt8 := 7
def SUBSCRIBE : UInt8 := 8
def SUBACK : UInt8 := 9
def UNSUBSCRIBE : UInt8 := 10
def UNSUBACK : UInt8 := 11
def PINGREQ : UInt8 := 12
def PINGRESP : UInt8 := 13
def DISCONNECT : UInt8 := 14

/-! ## Variable headers and payloads -/

structure Connect where
  protocol : Option GoString := none
  version : UInt8 := 0
  keepAliveTimer : ℕ := 0
  returnCode : UInt8 := 0
  userName : Bool := false
  password : Bool := false
  willRetain : Bool := false
  willQos : ℕ := 0
  willFlag : Bool := false
  cleanSession : Bool := false
  rserved : Bool := false
  id : Option GoString := none
  willTopic : Option GoString := none
  willMsg : Option GoString := none
  uname : Option GoString := none
  upassword : Option GoString := none
deriving DecidableEq, Repr

structure Connack where
  reserved : UInt8 := 0
  returnCode : UInt8 := 0
deriving DecidableEq, Repr

structure Publish where
  topicName : Option GoString := none
  mid : ℕ := 0
  msg : List UInt8 := []
deriving DecidableEq, Repr

structure Puback where
  mid : ℕ := 0
deriving DecidableEq, Repr

structure Topics where
  name : GoString
  qos : UInt8 := 0
deriving DecidableEq, Repr

structure Subscribe where
  mid : ℕ := 0
  topics : List Topics := []
deriving DecidableEq, Repr

structure Suback where
  mid : ℕ := 0
  qos : UInt8 := 0
deriving DecidableEq, Repr

structure UNSubscribe where
  mid : ℕ := 0
  topics : List Topics := []
deriving DecidableEq, Repr

structure UNSuback where
  mid : ℕ := 0
deriving DecidableEq, Repr

/-- What `Pack.variable` points to. -/
inductive Variable where
  | nil
  | connect (c : Connect)
  | connack (c : Connack)
  | publish (p : Publish)
  | puback (a : Puback)
  | subscribe (s : Subscribe)
  | suback (a : Suback)
  | unsubscribe (s : UNSubscribe)
  | unsuback (a : UNSuback)
deriving DecidableEq, Repr

structure Pack where
  msgType : UInt8 := 0
  dupFlag : UInt8 := 0
  qosLevel : UInt8 := 0
  retain : UInt8 := 0
  length : ℕ := 0
  variable_ : Variable := .nil
deriving DecidableEq, Repr

/-! ## Pack constructors -/

def getConnAckPack (returnCode : UInt8) : Pack :=
  { msgType := CONNACK, variable_ := .connack { returnCode } }

def getPubPack (qos dup : UInt8) (mid : ℕ) (topic : GoString) (msg : List UInt8) : Pack :=
  { qosLevel := qos, dupFlag := dup, msgType := PUBLISH,
    variable_ := .publish { mid, topicName := some topic, msg } }

/-- The four acknowledgements of a publish differ in their type and, for `PUBREL`, in the QoS. -/
def ackPack (msgType qos : UInt8) (mid : ℕ) : Pack :=
  { msgType, qosLevel := qos, variable_ := .puback { mid } }

def getPubAckPack (mid : ℕ) : Pack := ackPack PUBACK 0 mid

def getPubRECPack (mid : ℕ) : Pack := ackPack PUBREC 0 mid

def getPubRELPack (mid : ℕ) : Pack := ackPack PUBREL 1 mid

def getPubCOMPPack (mid : ℕ) : Pack := ackPack PUBCOMP 0 mid

def getSubAckPack (mid : ℕ) : Pack :=
  { msgType := SUBACK, variable_ := .suback { mid, qos := 0 } }

def getUNSubAckPack (mid : ℕ) : Pack :=
  { msgType := UNSUBACK, variable_ := .unsuback { mid } }

def getPingResp (qos dup : UInt8) : Pack :=
  { qosLevel := qos, dupFlag := dup, msgType := PINGRESP }

end Vmqant.Mqtt
