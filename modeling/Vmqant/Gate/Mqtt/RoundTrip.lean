import Vmqant.Gate.Mqtt.Decode
import Vmqant.Gate.Mqtt.Write

/-!
# Decode undoes encode

The packs of the message stream (`GetPubPack` and the acknowledgement constructors) written one
after another are read back one after another. `Pack.wire` states the bytes of such a pack, the
encoder is shown to write them and the decoder to read them, each in terms of `Writes` and `Reads`.
-/

namespace Vmqant.Mqtt

open ByteStream

/-- The packs the gate builds for the message stream, with arguments in range. -/
inductive Built : Pack → Prop where
  | pub {qos dup : UInt8} {mid : ℕ} {topic : GoString} {msg : List UInt8} (hqos : qos ≤ 2)
      (hdup : dup ≤ 1) (hmid : mid ≤ 65535) (hpos : 1 ≤ topic.length)
      (hle : topic.length ≤ 65535) : Built (getPubPack qos dup mid topic msg)
  | pubAck {mid : ℕ} (hmid : mid ≤ 65535) : Built (getPubAckPack mid)
  | pubREC {mid : ℕ} (hmid : mid ≤ 65535) : Built (getPubRECPack mid)
  | pubREL {mid : ℕ} (hmid : mid ≤ 65535) : Built (getPubRELPack mid)
  | pubCOMP {mid : ℕ} (hmid : mid ≤ 65535) : Built (getPubCOMPPack mid)
  | subAck {mid : ℕ} (hmid : mid ≤ 65535) : Built (getSubAckPack mid)
  | unSubAck {mid : ℕ} (hmid : mid ≤ 65535) : Built (getUNSubAckPack mid)

/-- The variable header and payload of a pack of the message stream. -/
def Pack.body (p : Pack) : List UInt8 :=
  match p.variable_ with
  | .publish pub =>
    putUint16 (pub.topicName.getD []).length ++ (pub.topicName.getD [] ++
      ((if p.qosLevel > 0 then putUint16 pub.mid else []) ++ pub.msg))
  | .puback ack => putUint16 ack.mid
  | .suback ack => putUint16 ack.mid ++ [ack.qos]
  | .unsuback ack => putUint16 ack.mid
  | _ => []

/-- The remaining length the encoder declares for a pack of the message stream. -/
def Pack.remainingLength (p : Pack) : ℕ := p.body.length

/-- The first byte of a pack. -/
def Pack.fixedByte (p : Pack) : UInt8 :=
  p.msgType <<< 4 ||| p.dupFlag <<< 3 ||| p.qosLevel <<< 1

/-- The bytes of a pack of the message stream. -/
def Pack.wire (p : Pack) : List UInt8 :=
  [p.fixedByte] ++ (VarInt.encode p.remainingLength ++ p.body)

/-- The pack as it reads back: the declared length is filled in, and a QoS 0 PUBLISH has id 0. -/
def Pack.readBack (p : Pack) : Pack :=
  { p with
    length := p.remainingLength
    variable_ := match p.variable_ with
      | .publish pub => .publish { pub with mid := if p.qosLevel > 0 then pub.mid else 0 }
      | v => v }

/-! ## The encoder -/

theorem remainingDigits_eq {room n : ℕ} (h : n < 128 ^ room) (hroom : 1 ≤ room) :
    remainingDigits room n = some (VarInt.encode n) := by
  induction room generalizing n with
  | zero => omega
  | succ room ih =>
    rw [remainingDigits]
    by_cases hn : n < 128
    · rw [if_neg (by omega), VarInt.encode_of_lt hn, Nat.mod_eq_of_lt hn]
    · have hge : 128 ≤ n := Nat.not_lt.mp hn
      have hdiv : n / 128 < 128 ^ room := Nat.div_lt_of_lt_mul (by rwa [pow_succ'] at h)
      have hroom' : 1 ≤ room := by
        rcases Nat.eq_zero_or_pos room with rfl | hpos
        · simp at h; omega
        · exact hpos
      -- setting the top bit of a digit below 128 adds 128
      have hor : n % 128 ||| 128 = n % 128 + 128 := by
        have hlt : n % 128 < 2 ^ 7 := Nat.mod_lt _ (by decide)
        have hadd := Nat.two_pow_add_eq_or_of_lt hlt 1
        rw [Nat.mul_one] at hadd
        rw [Nat.or_comm, Nat.add_comm]
        exact hadd.symm
      rw [if_pos (by omega), ih hdiv hroom', VarInt.encode_of_ge hge, hor]
      rfl

theorem getRemainingLength_eq {n : ℕ} (h : n < 128 ^ 4) :
    getRemainingLength n = some (VarInt.encode n) :=
  remainingDigits_eq h (by decide)

theorem writeFull_writes (b : List UInt8) : Writes (writeFull b) b := by
  rw [writeFull]
  split
  · next h =>
    rw [List.isEmpty_iff.mp h]
    exact Writes.pure
  · exact Writes.write _ _

theorem writeByte_writes (b : UInt8) : Writes (writeByte b) [b] := Writes.write _ _

theorem writeInt_writes (i : ℕ) : Writes (writeInt i) (putUint16 i) := writeFull_writes _

theorem writeLength_writes {n : ℕ} (h : n < 128 ^ 4) : Writes (writeLength n) (VarInt.encode n) := by
  rw [writeLength, getRemainingLength_eq h]
  exact writeFull_writes _

/-- A single length byte is the whole remaining length of a short body. -/
theorem writeLength0_writes {n : ℕ} (h : n < 128) : Writes (writeLength0 n) (VarInt.encode n) := by
  rw [writeLength0, getRemainingLength_eq (by omega), VarInt.encode_of_lt h]
  exact writeByte_writes _

theorem writeMid_writes (mid : ℕ) :
    Writes (writeMid mid) (VarInt.encode 2 ++ putUint16 mid) :=
  (writeLength0_writes (by decide)).bind (writeInt_writes mid)

theorem writePublish_writes (qos : UInt8) (mid : ℕ) (topic : GoString) (msg : List UInt8)
    (h : (if qos > 0 then 4 else 2) + topic.length + msg.length < 128 ^ 4) :
    Writes (writePublish qos { topicName := some topic, mid, msg })
      (VarInt.encode ((if qos > 0 then 4 else 2) + topic.length + msg.length) ++
        ((putUint16 topic.length ++ topic) ++
          ((if qos > 0 then putUint16 mid else []) ++ msg))) := by
  apply (writeLength_writes h).bind
  apply ((writeInt_writes topic.length).bind (writeFull_writes topic)).bind
  by_cases hq : qos > 0
  · rw [if_pos hq, if_pos hq]
    exact (writeInt_writes mid).bind (writeFull_writes msg)
  · rw [if_neg hq, if_neg hq]
    exact Writes.pure.bind (writeFull_writes msg)

/-- The declared length of a PUBLISH is that of its body. -/
theorem length_pubPieces (qos : UInt8) (mid : ℕ) (topic : GoString) (msg : List UInt8) :
    (putUint16 topic.length ++ (topic ++ ((if qos > 0 then putUint16 mid else []) ++ msg))).length
      = (if qos > 0 then 4 else 2) + topic.length + msg.length := by
  simp only [List.length_append, length_putUint16]
  by_cases hq : qos > 0
  · rw [if_pos hq, if_pos hq, length_putUint16]
    omega
  · rw [if_neg hq, if_neg hq, List.length_nil]
    omega

/-- The encoder writes the wire form of every built pack whose length fits four bytes. -/
theorem delayWritePack_writes {p : Pack} (hp : Built p) (hlen : p.remainingLength < 128 ^ 4) :
    Writes (delayWritePack p) p.wire := by
  apply (writeByte_writes _).bind
  cases hp with
  | @pub qos dup mid topic msg hqos hdup hmid hpos hle =>
    have hbody : (getPubPack qos dup mid topic msg).remainingLength
        = (if qos > 0 then 4 else 2) + topic.length + msg.length :=
      length_pubPieces qos mid topic msg
    have hwrite := writePublish_writes qos mid topic msg (by rwa [hbody] at hlen)
    rw [← hbody, List.append_assoc] at hwrite
    exact hwrite
  | pubAck => exact writeMid_writes _
  | pubREC => exact writeMid_writes _
  | pubREL => exact writeMid_writes _
  | pubCOMP => exact writeMid_writes _
  | subAck =>
    exact (writeLength0_writes (by decide)).bind ((writeInt_writes _).bind (writeByte_writes _))
  | unSubAck => exact writeMid_writes _

/-! ## The decoder -/

theorem exists_fin_of_le {b : UInt8} {n : ℕ} (h : b.toNat < n) :
    ∃ i : Fin n, b = UInt8.ofNat i :=
  ⟨⟨b.toNat, h⟩, by simp⟩

/-- The shifts of the encoder put type, dup flag and QoS where the decoder looks for them. -/
theorem fixedByte_shifts (t : Fin 16) (dup : Fin 2) (qos : Fin 4) :
    let b := UInt8.ofNat t <<< 4 ||| UInt8.ofNat dup <<< 3 ||| UInt8.ofNat qos <<< 1
    b >>> 4 = UInt8.ofNat t ∧ (b &&& 15) >>> 3 = UInt8.ofNat dup ∧
      (b &&& 15 &&& 7) >>> 1 = UInt8.ofNat qos ∧ b &&& 15 &&& 7 &&& 1 = 0 := by
  revert t dup qos
  decide

/-- The header fields of a built pack survive its first byte. -/
theorem Built.fixedByte_fields {p : Pack} (hp : Built p) :
    p.fixedByte >>> 4 = p.msgType ∧ (p.fixedByte &&& 15) >>> 3 = p.dupFlag ∧
      (p.fixedByte &&& 15 &&& 7) >>> 1 = p.qosLevel ∧ p.fixedByte &&& 15 &&& 7 &&& 1 = p.retain := by
  cases hp with
  | @pub qos dup mid topic msg hqos hdup hmid hpos hle =>
    have hqos' : qos.toNat < 4 := Nat.lt_succ_of_le (le_trans hqos (by decide))
    have hdup' : dup.toNat < 2 := Nat.lt_succ_of_le hdup
    obtain ⟨q, rfl⟩ := exists_fin_of_le hqos'
    obtain ⟨d, rfl⟩ := exists_fin_of_le hdup'
    exact fixedByte_shifts 3 d q
  | pubAck => exact fixedByte_shifts 4 0 0
  | pubREC => exact fixedByte_shifts 5 0 0
  | pubREL => exact fixedByte_shifts 6 0 1
  | pubCOMP => exact fixedByte_shifts 7 0 0
  | subAck => exact fixedByte_shifts 9 0 0
  | unSubAck => exact fixedByte_shifts 11 0 0

theorem readPublish_body {qos : UInt8} {mid : ℕ} {topic : GoString} (msg : List UInt8)
    (hqos : qos ≤ 2) (hmid : mid ≤ 65535) (hpos : 1 ≤ topic.length) (hle : topic.length ≤ 65535) :
    Reads (readPublish qos (putUint16 topic.length ++ (topic ++
        ((if qos > 0 then putUint16 mid else []) ++ msg))).length)
      (putUint16 topic.length ++ (topic ++ ((if qos > 0 then putUint16 mid else []) ++ msg)))
      { topicName := some topic, mid := if qos > 0 then mid else 0, msg } := by
  obtain ⟨q, rfl⟩ := exists_fin_of_le (Nat.lt_succ_of_le hqos : qos.toNat < 3)
  have hmid' : (UInt16.ofNat mid).toNat = mid := by
    rw [UInt16.toNat_ofNat']
    omega
  have hread := readPublish_reads ⟨⟨topic, by omega⟩, hpos, UInt16.ofNat mid, msg⟩ q
  simp only [Grammar.PublishBody.encode, Grammar.PublishBody.toPublish, Grammar.MqttString.encode,
    hmid', List.append_assoc] at hread
  simpa only [ofNat_qos_pos, ne_eq, ite_not] using hread

theorem readMid_reads {mid : ℕ} (hmid : mid ≤ 65535) (t : UInt8) :
    Reads (readPuback t 2) (putUint16 mid) { mid } :=
  Reads.map (fun mid => ({ mid } : Puback)) (readInt_reads (by omega))

theorem readVariable_body {p : Pack} (hp : Built p) :
    Reads (readVariable p.msgType p.qosLevel p.body.length) p.body p.readBack.variable_ := by
  cases hp with
  | pub hqos hdup hmid hpos hle =>
    exact Reads.fmap Variable.publish (readPublish_body _ hqos hmid hpos hle)
  | pubAck hmid => exact Reads.fmap Variable.puback (readMid_reads hmid _)
  | pubREC hmid => exact Reads.fmap Variable.puback (readMid_reads hmid _)
  | pubREL hmid => exact Reads.fmap Variable.puback (readMid_reads hmid _)
  | pubCOMP hmid => exact Reads.fmap Variable.puback (readMid_reads hmid _)
  | @subAck mid hmid =>
    have hlt : mid < 65536 := by omega
    refine Reads.fmap Variable.suback (Reads.bind (readInt_reads hlt) ?_)
    exact Reads.map (fun qos => ({ mid, qos } : Suback)) (Reads.readByte 0)
  | @unSubAck mid hmid =>
    have hlt : mid < 65536 := by omega
    exact Reads.fmap Variable.unsuback
      (Reads.map (fun mid => ({ mid } : UNSuback)) (readInt_reads hlt))

/-- The decoder reads the wire form of a built pack back, up to the fields the wire does not
carry. -/
theorem readPack_wire {maxPackLength : ℤ} {p : Pack} (hp : Built p)
    (hlen : (p.remainingLength : ℤ) ≤ min maxPackLength 2097151) :
    Reads (readPack maxPackLength) p.wire p.readBack := by
  obtain ⟨htype, hdup, hqos, hretain⟩ := hp.fixedByte_fields
  have hbody := readVariable_body hp
  rw [← htype, ← hqos] at hbody
  rw [Pack.remainingLength] at hlen
  have hmax : (p.body.length : ℤ) ≤ maxPackLength := by omega
  have hread := readPack_reads hmax (by omega) hbody
  rwa [htype, hdup, hqos, hretain] at hread

/-- **Decode undoes encode on the message stream.** Built packs within the length limits, written one
after another to a writer that does not fail, are read back one after another as they were, and the
reads end exactly where the writes did. -/
theorem readPacks_writePacks (maxPackLength : ℤ) (packs : List Pack) (hbuilt : ∀ p ∈ packs, Built p)
    (hlen : ∀ p ∈ packs, (p.remainingLength : ℤ) ≤ min maxPackLength 2097151) :
    ∃ bytes, packs.forM delayWritePack ⟨[], none⟩ = .ok () ⟨bytes, none⟩ ∧
      readPacks maxPackLength packs.length bytes = .ok (packs.map Pack.readBack) [] := by
  refine ⟨packs.flatMap Pack.wire, ?_, ?_⟩
  · refine Writes.forM (fun p hp => delayWritePack_writes (hbuilt p hp) ?_) []
    have := hlen p hp
    omega
  · have hread := Reads.readMany (fun p hp => readPack_wire (hbuilt p hp) (hlen p hp)) []
    rwa [List.append_nil] at hread

/-- A QoS 2 PUBLISH and its PUBREC. -/
theorem readPacks_writePacks_pubrec :
    ∃ bytes, [getPubPack 2 1 513 [97, 47] [9], getPubRECPack 513].forM delayWritePack ⟨[], none⟩
        = .ok () ⟨bytes, none⟩ ∧
      readPacks 100 2 bytes = .ok
        ([getPubPack 2 1 513 [97, 47] [9], getPubRECPack 513].map Pack.readBack) [] :=
  readPacks_writePacks 100 [getPubPack 2 1 513 [97, 47] [9], getPubRECPack 513]
    (by
      intro p hp
      rcases List.mem_pair.mp hp with rfl | rfl
      · exact .pub (by decide) (by decide) (by decide) (by decide) (by decide)
      · exact .pubREC (by decide))
    (by decide)

end Vmqant.Mqtt
