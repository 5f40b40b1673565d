import Vmqant.Gate.Mqtt.ReadSpec

/-!
# The decoder meets the grammar

`readPack_encode`: on a well-formed client frame `readPack` returns exactly the fields of the frame
and takes exactly its bytes. The length bookkeeping of the cases is loose: CONNECT does not count
the prefixes of its strings, SUBSCRIBE and UNSUBSCRIBE count the message id as a topic and stop at
`vlen > 3`. On a well-formed frame the slack never reaches a check: the CONNECT payload is positive
before each optional field, and the topic loops end with `vlen = 2`.
-/

namespace Vmqant.Mqtt

open ByteStream Grammar

/-! ## Bytes -/

theorem toNat_and_127 (b : UInt8) : (b &&& 127).toNat = b.toNat % 128 := by
  rw [UInt8.toNat_and]
  exact Nat.and_two_pow_sub_one_eq_mod b.toNat 7

/-- The continuation test `b >> 7 != 0`. -/
theorem shiftRight_7_ne_zero (b : UInt8) : (b >>> 7 != 0) = decide (128 ≤ b.toNat) := by
  have hval : (b >>> 7).toNat = b.toNat / 128 := by
    rw [UInt8.toNat_shiftRight]
    exact Nat.shiftRight_eq_div_pow _ _
  have hiff : (b >>> 7 != 0) = true ↔ 128 ≤ b.toNat := by
    rw [bne_iff_ne, ne_eq, ← UInt8.toNat_inj, hval]
    have h0 : (0 : UInt8).toNat = 0 := rfl
    omega
  by_cases h : 128 ≤ b.toNat
  · rw [decide_eq_true h, hiff.mpr h]
  · rw [decide_eq_false h, Bool.eq_false_iff]
    exact fun hc => h (hiff.mp hc)

/-- The four fields `readPack` cuts the first byte into. -/
theorem fixedByte_fields (f : FixedFlags) (t : Fin 16) :
    f.byte t >>> 4 = UInt8.ofNat t ∧
      (f.byte t &&& 15) >>> 3 = UInt8.ofNat f.dup.toNat ∧
      (f.byte t &&& 15 &&& 7) >>> 1 = UInt8.ofNat f.qos ∧
      f.byte t &&& 15 &&& 7 &&& 1 = UInt8.ofNat f.retain.toNat := by
  obtain ⟨dup, qos, retain⟩ := f
  revert dup qos retain t
  decide

/-- The flags a CONNECT body derives from its fields are read back as they were. -/
theorem parseFlags_flags (c : ConnectBody) (protocol : Option GoString) (version : UInt8)
    (keepAliveTimer : ℕ) :
    parseFlags c.flags { protocol, version, keepAliveTimer } =
      { protocol, version, keepAliveTimer, userName := c.userName.isSome,
        password := c.password.isSome, willRetain := c.willRetain, willQos := c.willQos,
        willFlag := c.will.isSome, cleanSession := c.cleanSession, rserved := c.reserved } := by
  have key : ∀ (u p r w s v : Bool) (q : Fin 4),
      parseFlags (UInt8.ofNat (128 * u.toNat + 64 * p.toNat + 32 * r.toNat + 8 * q + 4 * w.toNat +
        2 * s.toNat + v.toNat)) { protocol, version, keepAliveTimer } =
      { protocol, version, keepAliveTimer, userName := u, password := p, willRetain := r,
        willQos := q, willFlag := w, cleanSession := s, rserved := v } := by
    intro u p r w s v q
    cases u <;> cases p <;> cases r <;> cases w <;> cases s <;> cases v <;> fin_cases q <;> rfl
  exact key _ _ _ _ _ _ _

/-! ## The remaining length -/

/-- The loop adds the number its bytes encode, in units of `multiplier`, when that number has at
most as many groups as the loop may read. -/
theorem readLength_reads {left n : ℕ} (h : n < 128 ^ (left + 1)) (multiplier length : ℕ)
    {t : UInt8} {bs : List UInt8} (henc : VarInt.encode n = t :: bs) :
    Reads (readLength t multiplier length left) bs (length + n * multiplier) := by
  induction left generalizing n multiplier length t bs with
  | zero =>
    have hn : n < 128 := by simpa using h
    obtain ⟨rfl, rfl⟩ : t = UInt8.ofNat n ∧ bs = [] := by
      rw [VarInt.encode_of_lt hn] at henc
      simp_all
    simp only [readLength, toNat_and_127, VarInt.toNat_low hn, Nat.mod_eq_of_lt hn]
    exact Reads.pure _
  | succ left ih =>
    rw [readLength]
    by_cases hn : n < 128
    · obtain ⟨rfl, rfl⟩ : t = UInt8.ofNat n ∧ bs = [] := by
        rw [VarInt.encode_of_lt hn] at henc
        simp_all
      rw [shiftRight_7_ne_zero, toNat_and_127, VarInt.toNat_low hn, Nat.mod_eq_of_lt hn,
        if_neg (by simpa using hn)]
      exact Reads.pure _
    · have hge : 128 ≤ n := Nat.not_lt.mp hn
      rw [VarInt.encode_of_ge hge] at henc
      obtain ⟨rfl, rfl⟩ : UInt8.ofNat (n % 128 + 128) = t ∧ VarInt.encode (n / 128) = bs := by
        simpa using henc
      obtain ⟨t', bs', henc'⟩ : ∃ t' bs', VarInt.encode (n / 128) = t' :: bs' := by
        rw [VarInt.encode]
        split <;> exact ⟨_, _, rfl⟩
      have hdiv : n / 128 < 128 ^ (left + 1) :=
        Nat.div_lt_of_lt_mul (by rwa [pow_succ'] at h)
      rw [shiftRight_7_ne_zero, toNat_and_127, VarInt.toNat_high, if_pos (by simp), henc']
      -- the rest of the number counts 128 times as much
      have hval : length + n * multiplier
          = length + (n % 128 + 128) % 128 * multiplier + n / 128 * (multiplier * 128) := by
        have hn' : n = n % 128 + 128 * (n / 128) := (Nat.mod_add_div n 128).symm
        have hmod : (n % 128 + 128) % 128 = n % 128 := by omega
        rw [hmod]
        conv_lhs => rw [hn']
        ring
      rw [hval]
      exact (Reads.readByte t').bind (ih hdiv _ _ henc')

/-- A remaining length of at most three bytes is read back. -/
theorem readLength_encode {n : ℕ} (h : n ≤ 2097151) :
    Reads (do let tempByte ← readByte; readLength tempByte 1 0 2) (VarInt.encode n) n := by
  obtain ⟨t, bs, henc⟩ : ∃ t bs, VarInt.encode n = t :: bs := by
    rw [VarInt.encode]
    split <;> exact ⟨_, _, rfl⟩
  have hbound : n < 128 ^ (2 + 1) := by omega
  have hread := readLength_reads hbound 1 0 henc
  rw [Nat.zero_add, Nat.mul_one] at hread
  rw [henc]
  exact (Reads.readByte t).bind hread

/-! ## CONNECT -/

/-- What `playload_len` loses at an optional string is at most the bytes it takes. -/
theorem optionLen_le (o : Option MqttString) : optionLen o ≤ (encodeOption o).length := by
  cases o <;> simp [optionLen, encodeOption]

theorem willLen_le (w : Option (MqttString × MqttString)) :
    willLen w ≤ (encodeWill w).length := by
  cases w
  · simp [willLen, encodeWill]
  · simp [willLen, encodeWill]
    omega

theorem length_of_mem_option {o : Option MqttString} {s : MqttString} (h : s ∈ o) :
    (encodeOption o).length = 2 + s.bytes.length := by
  rw [Option.mem_def.mp h]
  simp [encodeOption]

theorem length_of_mem_will {w : Option (MqttString × MqttString)} {p : MqttString × MqttString}
    (h : p ∈ w) : (encodeWill w).length = 2 + p.1.bytes.length + (2 + p.2.bytes.length) := by
  rw [Option.mem_def.mp h]
  simp [encodeWill]

/-- The pieces of a well-formed CONNECT. -/
def Grammar.ConnectBody.parts (c : ConnectBody) : ConnectParts where
  protocol := c.protocol
  version := c.version
  flags := c.flags
  keepAlive := c.keepAlive.toNat
  keepAlive_lt := c.keepAlive.toNat_lt
  payload := ⟨c.id, c.will, c.userName, c.password⟩

theorem parsed_parts (c : ConnectBody) :
    c.parts.parsed =
      { protocol := some c.protocol.bytes, version := c.version,
        keepAliveTimer := c.keepAlive.toNat, userName := c.userName.isSome,
        password := c.password.isSome, willRetain := c.willRetain, willQos := c.willQos,
        willFlag := c.will.isSome, cleanSession := c.cleanSession, rserved := c.reserved } :=
  parseFlags_flags c _ _ _

theorem length_connectBody (c : ConnectBody) :
    c.encode.length = 2 + c.protocol.bytes.length + 4 + (2 + c.id.bytes.length) +
      (encodeWill c.will).length + (encodeOption c.userName).length +
      (encodeOption c.password).length := by
  simp [ConnectBody.encode]
  omega

/-- A credential is there exactly when its flag is set, as long as `playload_len` is positive. -/
theorem isSome_eq_and_decide (o : Option MqttString) {n : ℤ} (h : 0 < n) :
    o.isSome = (o.isSome && decide (n > 0)) := by
  rw [decide_eq_true h, Bool.and_true]

/-- A well-formed CONNECT passes the checks: `playload_len` still counts the two prefix bytes of
the identifier, so it stays positive up to the last field. -/
theorem parts_passes (c : ConnectBody) : c.parts.Passes c.encode.length := by
  have hlen := length_connectBody c
  have hwill := willLen_le c.will
  have huser := optionLen_le c.userName
  have hid : c.parts.payload.afterId (c.encode.length - 2 - c.protocol.bytes.length - 4)
      = 2 + (encodeWill c.will).length + (encodeOption c.userName).length
        + (encodeOption c.password).length := by
    simp only [PayloadParts.afterId, ConnectBody.parts]
    omega
  have hwill' : (2 + (encodeOption c.userName).length + (encodeOption c.password).length : ℤ)
      ≤ c.parts.payload.afterWill (c.encode.length - 2 - c.protocol.bytes.length - 4) := by
    rw [PayloadParts.afterWill, hid]
    simp only [ConnectBody.parts]
    omega
  have huser' : (2 + (encodeOption c.password).length : ℤ)
      ≤ c.parts.payload.afterUname (c.encode.length - 2 - c.protocol.bytes.length - 4) := by
    rw [PayloadParts.afterUname]
    simp only [ConnectBody.parts] at hwill' ⊢
    omega
  refine ⟨by simp only [ConnectBody.parts]; omega, ⟨c.id_pos, c.id_le, ?_, ?_, ?_, ?_, ?_, ?_⟩⟩
  · rw [parsed_parts]
    rfl
  · intro p hp
    have := length_of_mem_will (show p ∈ c.will from hp)
    exact le_trans (by omega) hid.ge
  · rw [parsed_parts]
    exact isSome_eq_and_decide _ (lt_of_lt_of_le (by omega) hwill')
  · intro u hu
    have := length_of_mem_option (show u ∈ c.userName from hu)
    exact le_trans (by omega) hwill'
  · rw [parsed_parts]
    exact isSome_eq_and_decide _ (lt_of_lt_of_le (by omega) huser')
  · intro u hu
    have := length_of_mem_option (show u ∈ c.password from hu)
    exact le_trans (by omega) huser'

theorem readConnect_reads (c : ConnectBody) :
    Reads (readConnect c.encode.length) c.encode c.toConnect := by
  have hread := readConnect_parts (parts_passes c)
  rw [parsed_parts] at hread
  exact hread

/-! ## PUBLISH -/

theorem length_publishBody (p : PublishBody) (qos : Fin 3) :
    (p.encode qos).length
      = 2 + p.topic.bytes.length + (if qos = 0 then 0 else 2) + p.payload.length := by
  unfold PublishBody.encode
  split
  · simp
  · simp
    omega

/-- The payload, and nothing when `vlen` is already used up. -/
theorem readPayload_reads (f : List UInt8 → Publish) (payload : List UInt8) (vlen : ℤ)
    (h : vlen = payload.length) :
    Reads (if vlen ≤ 0 then pure (f []) else do let msg ← readFull vlen.toNat; pure (f msg) :
      Reader PackErr Publish) payload (f payload) := by
  subst h
  by_cases hnil : payload = []
  · subst hnil
    exact Reads.pure _
  · have hpos : 0 < payload.length := List.length_pos_of_ne_nil hnil
    rw [if_neg (by omega), Int.toNat_natCast]
    exact Reads.map f (Reads.readFull payload)

theorem ofNat_qos_pos : ∀ qos : Fin 3, UInt8.ofNat qos > 0 ↔ qos ≠ 0 := by decide

theorem readPublish_reads (p : PublishBody) (qos : Fin 3) :
    Reads (readPublish (UInt8.ofNat qos) (p.encode qos).length) (p.encode qos)
      (p.toPublish qos) := by
  have hlen := length_publishBody p qos
  have htopic := p.topic_pos
  generalize (p.encode qos).length = length at hlen ⊢
  rw [readPublish, PublishBody.encode, PublishBody.toPublish]
  apply (readString_reads p.topic).bind
  dsimp only
  rw [if_neg (by omega)]
  by_cases hq : qos = 0
  · subst hq
    simp only [if_true] at hlen ⊢
    exact readPayload_reads (fun msg => { topicName := some p.topic.bytes, msg }) p.payload _
      (by omega)
  · have hqpos : UInt8.ofNat qos > 0 := (ofNat_qos_pos qos).mpr hq
    rw [if_neg hq] at hlen
    rw [if_neg hq, if_neg hq, if_pos hqpos, if_neg (by omega)]
    apply (readInt_uint16 p.mid).bind
    exact readPayload_reads
      (fun msg => { topicName := some p.topic.bytes, mid := p.mid.toNat, msg }) p.payload _
      (by omega)

/-! ## SUBSCRIBE and UNSUBSCRIBE -/

theorem topicBytes_flatMap (topics : List (MqttString × UInt8)) :
    (topics.map fun t => ({ name := t.1.bytes, qos := t.2 } : Topics)).flatMap topicBytes
      = topics.flatMap encodeTopic := by
  rw [List.flatMap_map]
  apply List.flatMap_congr
  intro t _
  simp only [topicBytes, encodeTopic, MqttString.encode, List.append_assoc]

theorem readSubscribe_reads (mid : UInt16) (topics : List (MqttString × UInt8)) :
    Reads (readSubscribe (putUint16 mid.toNat ++ topics.flatMap encodeTopic).length)
      (putUint16 mid.toNat ++ topics.flatMap encodeTopic)
      { mid := mid.toNat, topics := topics.map fun t => { name := t.1.bytes, qos := t.2 } } := by
  apply (readInt_uint16 mid).bind
  apply Reads.map (fun ts => ({ mid := mid.toNat, topics := ts } : Subscribe))
  intro rest
  have hvalid : ∀ t ∈ topics.map fun t => ({ name := t.1.bytes, qos := t.2 } : Topics),
      t.name.length < 65536 := by
    intro t ht
    obtain ⟨u, -, rfl⟩ := List.mem_map.mp ht
    exact u.1.short
  have hloop := topicLoop_exact readTopic_spec _ hvalid rest
  rw [topicBytes_flatMap] at hloop
  rw [List.length_append, length_putUint16, total]
  push_cast
  rw [hloop]

theorem unTopicBytes_flatMap (topics : List MqttString) :
    (topics.map fun t => ({ name := t.bytes } : Topics)).flatMap unTopicBytes
      = topics.flatMap MqttString.encode := by
  rw [List.flatMap_map]
  rfl

theorem readUNSubscribe_reads (mid : UInt16) (topics : List MqttString) :
    Reads (readUNSubscribe (putUint16 mid.toNat ++ topics.flatMap MqttString.encode).length)
      (putUint16 mid.toNat ++ topics.flatMap MqttString.encode)
      { mid := mid.toNat, topics := topics.map fun t => { name := t.bytes } } := by
  apply (readInt_uint16 mid).bind
  apply Reads.map (fun ts => ({ mid := mid.toNat, topics := ts } : UNSubscribe))
  intro rest
  have hvalid : ∀ t ∈ topics.map fun t => ({ name := t.bytes } : Topics),
      t.name.length < 65536 ∧ t.qos = 0 := by
    intro t ht
    obtain ⟨u, -, rfl⟩ := List.mem_map.mp ht
    exact ⟨u.short, rfl⟩
  have hloop := topicLoop_exact readUNTopic_spec _ hvalid rest
  rw [unTopicBytes_flatMap] at hloop
  rw [List.length_append, length_putUint16, total]
  push_cast
  rw [hloop]

/-! ## Frames -/

/-- Each case of the `switch` reads exactly the body of its frame. -/
theorem readVariable_reads (f : Frame) :
    Reads (readVariable (UInt8.ofNat f.msgType) (UInt8.ofNat f.fixedFlags.qos) f.remainingLength)
      f.body f.fields := by
  cases f with
  | connect f c => exact Reads.fmap Variable.connect (readConnect_reads c)
  | publish dup retain qos p => exact Reads.fmap Variable.publish (readPublish_reads p qos)
  | ack kind f mid =>
    have hread : ∀ t, Reads (readPuback t 2) (putUint16 mid.toNat) { mid := mid.toNat } :=
      fun t => Reads.map (fun mid => ({ mid } : Puback)) (readInt_uint16 mid)
    cases kind <;> exact Reads.fmap Variable.puback (hread _)
  | subscribe f mid topics => exact Reads.fmap Variable.subscribe (readSubscribe_reads mid topics)
  | unsubscribe f mid topics => exact Reads.fmap Variable.unsubscribe (readUNSubscribe_reads mid topics)
  | pingreq f => exact Reads.pure _
  | disconnect f => exact Reads.pure _

/-- A frame is read exactly when its case of the `switch` reads exactly its body. -/
theorem readPack_reads {maxPackLength : ℤ} {fixed : UInt8} {body : List UInt8} {v : Variable}
    (hmax : (body.length : ℤ) ≤ maxPackLength) (hlen : body.length ≤ 2097151)
    (hbody : Reads (readVariable (fixed >>> 4) ((fixed &&& 15 &&& 7) >>> 1) body.length) body v) :
    Reads (readPack maxPackLength) ([fixed] ++ (VarInt.encode body.length ++ body))
      { msgType := fixed >>> 4, dupFlag := (fixed &&& 15) >>> 3,
        qosLevel := (fixed &&& 15 &&& 7) >>> 1, retain := fixed &&& 15 &&& 7 &&& 1,
        length := body.length, variable_ := v } := by
  apply (Reads.readByte fixed).bind
  dsimp only
  rw [← bind_assoc]
  apply (readLength_encode hlen).bind
  rw [if_neg (by omega)]
  exact hbody.map _

/-- `readPack` takes exactly the bytes of a frame and returns exactly its fields. -/
theorem readPack_encode (maxPackLength : ℤ) (f : Frame)
    (hmax : (f.remainingLength : ℤ) ≤ maxPackLength) (hlen : f.remainingLength ≤ 2097151) :
    Reads (readPack maxPackLength) f.encode f.toPack := by
  obtain ⟨htype, hdup, hqos, hretain⟩ := fixedByte_fields f.fixedFlags f.msgType
  have hbody := readVariable_reads f
  rw [← htype, ← hqos] at hbody
  have hread := readPack_reads hmax hlen hbody
  rwa [htype, hdup, hqos, hretain] at hread

/-- **The decoder against the MQTT 3.1 grammar.** On the concatenation of any well-formed client
frames within the length limits, followed by anything, one `ReadPack` per frame succeeds, returns
the fields of the frames in order, and leaves exactly what follows them. -/
theorem readPacks_encode (maxPackLength : ℤ) (frames : List Frame) (rest : List UInt8)
    (hlen : ∀ f ∈ frames, (f.remainingLength : ℤ) ≤ min maxPackLength 2097151) :
    readPacks maxPackLength frames.length (frames.flatMap Frame.encode ++ rest)
      = .ok (frames.map Frame.toPack) rest := by
  refine Reads.readMany (fun f hf => ?_) rest
  have hf' := hlen f hf
  exact readPack_encode maxPackLength f (by omega) (by omega)

/-- A CONNECT with a password but no user name, a QoS 1 PUBLISH and a SUBSCRIBE to an empty topic. -/
def sampleFrames : List Frame :=
  [.connect ⟨false, 0, false⟩
    { protocol := ⟨[77, 81, 84, 84], by decide⟩, version := 4, willRetain := false, willQos := 0,
      cleanSession := true, reserved := false, keepAlive := 60, id := ⟨[99], by decide⟩,
      id_pos := by decide, id_le := by decide, will := none, userName := none,
      password := some ⟨[112, 119], by decide⟩ },
   .publish false true 1 ⟨⟨[116], by decide⟩, by decide, 7, [1, 2, 3]⟩,
   .subscribe ⟨false, 1, false⟩ 8 [(⟨[], by decide⟩, 2)]]

theorem readPacks_sampleFrames :
    readPacks 65535 3 (sampleFrames.flatMap Frame.encode ++ [192, 0])
      = .ok (sampleFrames.map Frame.toPack) [192, 0] :=
  readPacks_encode 65535 sampleFrames [192, 0] (by decide)

end Vmqant.Mqtt
