import Vmqant.Gate.Mqtt.FrameDiscipline

/-!
# Truncated frames

Reference: `gate/base/mqtt/mqtt.go`, lines 304-641.

A frame that is cut off by the end of the stream should be an error. The readers of all fields report the
end, but the loops over topic lists declare an `err` of their own and are left by `break`, so that the error
of a cut inside a list is lost. `truncated_rejected_iff` says for every well-formed frame, of a client or of
a server, which of its beginnings are rejected.
-/

namespace Vmqant.Mqtt

open ByteStream Grammar

/-! ## The readers -/

theorem strict_readInt : Strict readInt := (Strict.readFull 2).bind fun _ => .pure _

theorem strict_readString : Strict readString := by
  refine strict_readInt.bind fun nn => ?_
  split
  · exact (Strict.readFull nn).bind fun _ => .pure _
  · exact .pure _

theorem strict_readWill (willFlag : Bool) (playloadLen : ℤ) : Strict (readWill willFlag playloadLen) := by
  unfold readWill
  split
  · refine strict_readString.bind fun ⟨s, n⟩ => ?_
    dsimp only
    split
    · exact .throw _
    · exact strict_readString.bind fun ⟨_, _⟩ => .pure _
  · exact .pure _

theorem strict_readCredential (flag : Bool) (playloadLen : ℤ) : Strict (readCredential flag playloadLen) := by
  unfold readCredential
  split
  · refine strict_readString.bind fun ⟨s, n⟩ => ?_
    dsimp only
    split
    · exact .throw _
    · exact .pure _
  · exact .pure _

theorem strict_readConnectPayload (conn : Connect) (playloadLen : ℤ) :
    Strict (readConnectPayload conn playloadLen) := by
  refine strict_readString.bind fun ⟨id, n⟩ => ?_
  dsimp only
  split
  · exact .throw _
  · split
    · exact .throw _
    · refine (strict_readWill _ _).bind fun ⟨topic, msg, left⟩ => ?_
      refine (strict_readCredential _ _).bind fun ⟨uname, left⟩ => ?_
      exact (strict_readCredential _ _).bind fun ⟨_, _⟩ => .pure _

theorem strict_readConnect (length : ℕ) : Strict (readConnect length) := by
  refine strict_readString.bind fun ⟨protocol, n⟩ => ?_
  dsimp only
  split
  · exact .throw _
  · refine Strict.readByte.bind fun version => Strict.readByte.bind fun flags => ?_
    exact strict_readInt.bind fun _ => strict_readConnectPayload _ _

theorem strict_readPublish (qos : UInt8) (length : ℕ) : Strict (readPublish qos length) := by
  refine strict_readString.bind fun ⟨topicName, n⟩ => ?_
  dsimp only
  split
  · exact .throw _
  · split
    · split
      · exact .throw _
      · refine strict_readInt.bind fun mid => ?_
        split
        · exact .pure _
        · exact (Strict.readFull _).bind fun _ => .pure _
    · split
      · exact .pure _
      · exact (Strict.readFull _).bind fun _ => .pure _

theorem strict_readPuback (msgType : UInt8) (length : ℕ) : Strict (readPuback msgType length) := by
  unfold readPuback
  split
  · exact strict_readInt.bind fun _ => .pure _
  · exact .throw _

theorem strict_readUNSuback (msgType : UInt8) (length : ℕ) : Strict (readUNSuback msgType length) := by
  unfold readUNSuback
  split
  · exact strict_readInt.bind fun _ => .pure _
  · exact .throw _

theorem strict_readSuback (msgType : UInt8) (length : ℕ) : Strict (readSuback msgType length) := by
  unfold readSuback
  split
  · exact strict_readInt.bind fun _ => Strict.readByte.bind fun _ => .pure _
  · exact .throw _

/-- Every `case` but those of the topic lists reports a cut. -/
theorem strict_readVariable {msgType : UInt8} (hsub : msgType ≠ SUBSCRIBE) (hunsub : msgType ≠ UNSUBSCRIBE)
    (qos : UInt8) (length : ℕ) : Strict (readVariable msgType qos length) := by
  unfold readVariable
  rw [if_neg hsub, if_neg hunsub]
  split_ifs
  · exact (strict_readConnect length).map _
  · exact (strict_readPublish qos length).map _
  · exact (strict_readPuback msgType length).map _
  · exact (strict_readSuback msgType length).map _
  · exact (strict_readUNSuback msgType length).map _
  · exact .pure _
  · exact .pure _
  · exact (Strict.readFull length).bind fun _ => .pure _
  · exact .pure _

/-- The topic lists need no more than their message id. -/
theorem readTopics_ok_iff {α : Type} (entry : List UInt8 → Option (Topics × ℕ) × List UInt8)
    (f : ℕ → List Topics → α) (length : ℕ) (b : List UInt8) :
    (∃ v t, (do let mid ← readInt
                let topics ← total (topicLoop entry length [])
                pure (f mid topics) : Reader PackErr α) b = .ok v t) ↔ 2 ≤ b.length := by
  rcases readInt_cases b with ⟨hshort, e, he⟩ | ⟨n, s, -, rfl, hok⟩
  · refine iff_of_false ?_ (by omega)
    rintro ⟨v, t, h⟩
    rw [bind_apply, he] at h
    cases h
  · refine iff_of_true ⟨_, _, bind_eq_ok.mpr ⟨n, s, hok, bind_eq_ok.mpr ⟨_, _, rfl, rfl⟩⟩⟩ ?_
    rw [List.length_append, length_putUint16]
    omega

theorem map_ok_iff {α β : Type} (m : Reader PackErr α) (f : α → β) (b : List UInt8) :
    (∃ v t, (f <$> m) b = .ok v t) ↔ ∃ v t, m b = .ok v t := by
  constructor
  · rintro ⟨v, t, h⟩
    obtain ⟨a, ha, -⟩ := map_eq_ok.mp h
    exact ⟨a, t, ha⟩
  · rintro ⟨a, t, ha⟩
    exact ⟨f a, t, map_eq_ok.mpr ⟨a, ha, rfl⟩⟩

theorem readVariable_topics_ok_iff {msgType : UInt8} (h : msgType = SUBSCRIBE ∨ msgType = UNSUBSCRIBE)
    (qos : UInt8) (length : ℕ) (b : List UInt8) :
    (∃ v t, readVariable msgType qos length b = .ok v t) ↔ 2 ≤ b.length := by
  rcases h with rfl | rfl
  · exact (map_ok_iff (readSubscribe length) Variable.subscribe b).trans
      (readTopics_ok_iff readTopic Subscribe.mk length b)
  · exact (map_ok_iff (readUNSubscribe length) Variable.unsubscribe b).trans
      (readTopics_ok_iff readUNTopic UNSubscribe.mk length b)

/-! ## The beginnings of a stream -/

/-- On a beginning of a stream the decoder needs the fixed header, the length bytes and what the `case` of
the message type needs. -/
theorem readPack_prefix_ok_iff {maxPackLength : ℤ} {fixed : UInt8} {len b p : List UInt8} {n : ℕ}
    (hlen : LengthBytes 2 len n) (hmax : (n : ℤ) ≤ maxPackLength) (hp : p <+: fixed :: (len ++ b)) :
    (∃ pack t, readPack maxPackLength p = .ok pack t) ↔
      ∃ q, p = fixed :: (len ++ q) ∧ q <+: b ∧
        ∃ v t, readVariable (fixed >>> 4) ((fixed &&& 15 &&& 7) >>> 1) n q = .ok v t := by
  constructor
  · rintro ⟨pack, t, hpack⟩
    obtain ⟨fixed', len', q, n', v, rfl, hlen', -, hv, -⟩ := readPack_eq_ok.mp hpack
    obtain ⟨rfl, hp'⟩ := List.cons_prefix_cons.mp hp
    obtain ⟨r, hr⟩ := hp'
    rw [List.append_assoc] at hr
    obtain ⟨rfl, rfl⟩ := hlen'.unique hlen hr
    rw [← List.append_assoc, ← List.append_assoc] at hr
    obtain rfl : len' = len := List.append_cancel_right (List.append_cancel_right hr)
    exact ⟨q, rfl, List.prefix_append q r, v, t, hv⟩
  · rintro ⟨q, rfl, -, v, t, hv⟩
    exact ⟨_, t, readPack_eq_ok.mpr ⟨fixed, len, q, n, v, rfl, hlen, hmax, hv, rfl⟩⟩

/-- Where the `case` needs `k` bytes, the decoder rejects the beginnings without them. -/
theorem readPack_rejects_iff {maxPackLength : ℤ} {fixed : UInt8} {len b p : List UInt8} {n k : ℕ}
    (hlen : LengthBytes 2 len n) (hmax : (n : ℤ) ≤ maxPackLength) (hp : p <+: fixed :: (len ++ b))
    (hneeds : ∀ q, q <+: b →
      ((∃ v t, readVariable (fixed >>> 4) ((fixed &&& 15 &&& 7) >>> 1) n q = .ok v t) ↔ k ≤ q.length)) :
    (∃ e t, readPack maxPackLength p = .error e t) ↔ p.length < 1 + len.length + k := by
  have hok : (∃ pack t, readPack maxPackLength p = .ok pack t) ↔ 1 + len.length + k ≤ p.length := by
    rw [readPack_prefix_ok_iff hlen hmax hp]
    constructor
    · rintro ⟨q, rfl, hq, hv⟩
      have hk := (hneeds q hq).mp hv
      rw [List.length_cons, List.length_append]
      omega
    · intro hle
      have hheader : fixed :: len <+: p := by
        refine List.prefix_of_prefix_length_le (List.prefix_append (fixed :: len) b) hp ?_
        rw [List.length_cons]
        omega
      obtain ⟨q, rfl⟩ := hheader
      have hq : q <+: b := (List.prefix_append_right_inj (fixed :: len)).mp hp
      refine ⟨q, rfl, hq, (hneeds q hq).mpr ?_⟩
      rw [List.length_append, List.length_cons] at hle
      omega
  rw [← Nat.not_le, ← hok]
  cases readPack maxPackLength p with
  | ok pack t => exact iff_of_false nofun fun h => h ⟨pack, t, rfl⟩
  | error e t =>
    refine iff_of_true ⟨e, t, rfl⟩ ?_
    rintro ⟨pack, t', h⟩
    cases h

/-! ## Well-formed frames -/

/-- A well-formed frame of a client or of a server; a SUBACK has one code for each topic. -/
inductive AnyFrame where
  | client (f : Frame)
  | connack (f : FixedFlags) (reserved returnCode : UInt8)
  | suback (f : FixedFlags) (mid : UInt16) (codes : List UInt8)
  | unsuback (f : FixedFlags) (mid : UInt16)
  | pingresp (f : FixedFlags)

namespace AnyFrame

def msgType : AnyFrame → Fin 16
  | client f => f.msgType
  | connack _ _ _ => 2
  | suback _ _ _ => 9
  | unsuback _ _ => 11
  | pingresp _ => 13

def fixedFlags : AnyFrame → FixedFlags
  | client f => f.fixedFlags
  | connack f _ _ | suback f _ _ | unsuback f _ | pingresp f => f

/-- The variable header and the payload. -/
def body : AnyFrame → List UInt8
  | client f => f.body
  | connack _ reserved returnCode => [reserved, returnCode]
  | suback _ mid codes => putUint16 mid.toNat ++ codes
  | unsuback _ mid => putUint16 mid.toNat
  | pingresp _ => []

def fixedByte (f : AnyFrame) : UInt8 := f.fixedFlags.byte f.msgType

/-- The frame on the wire. -/
def encode (f : AnyFrame) : List UInt8 :=
  f.fixedByte :: (VarInt.encode f.body.length ++ f.body)

/-- The frame has a list of topics. -/
def HasTopics : AnyFrame → Prop
  | client (.subscribe _ _ _) | client (.unsubscribe _ _ _) => True
  | _ => False

instance : DecidablePred HasTopics
  | client (.subscribe _ _ _) | client (.unsubscribe _ _ _) => isTrue trivial
  | client (.connect _ _) | client (.publish _ _ _ _) | client (.ack _ _ _) | client (.pingreq _)
  | client (.disconnect _) | connack _ _ _ | suback _ _ _ | unsuback _ _ | pingresp _ => isFalse id

/-- What the decoder needs of the body when it takes the fourth length byte for the first byte of it. -/
def misread (f : AnyFrame) : ℕ :=
  match f with
  | client (.publish _ _ _ p) =>
    max (2 + (f.body.length / 2 ^ 21 * 256 + p.topic.bytes.length / 256)) (f.body.length % 2 ^ 21)
  | suback _ _ _ => 3
  | _ => 2

/-- How much of the frame the decoder needs. It reads at most three length bytes, and of a list of topics
only the message id is necessary. -/
def needed (f : AnyFrame) : ℕ :=
  if f.body.length < 2 ^ 21 then
    if f.HasTopics then 1 + (VarInt.encode f.body.length).length + 2 else f.encode.length
  else 1 + 3 + f.misread

end AnyFrame

theorem lengthBytes_encode {left n : ℕ} (h : n < 128 ^ (left + 1)) : LengthBytes left (VarInt.encode n) n := by
  induction left generalizing n with
  | zero =>
    have hn : n < 128 := by simpa using h
    have hstop : LengthBytes 0 [UInt8.ofNat n] ((UInt8.ofNat n).toNat % 128) := .stop (.inr rfl)
    rw [VarInt.toNat_low hn, Nat.mod_eq_of_lt hn] at hstop
    rwa [VarInt.encode_of_lt hn]
  | succ left ih =>
    by_cases hn : n < 128
    · have hstop : LengthBytes (left + 1) [UInt8.ofNat n] ((UInt8.ofNat n).toNat % 128) :=
        .stop (.inl (by rwa [VarInt.toNat_low hn]))
      rw [VarInt.toNat_low hn, Nat.mod_eq_of_lt hn] at hstop
      rwa [VarInt.encode_of_lt hn]
    · have hdiv : n / 128 < 128 ^ (left + 1) := Nat.div_lt_of_lt_mul (by rwa [pow_succ'] at h)
      have hmore := LengthBytes.more (b := UInt8.ofNat (n % 128 + 128))
        (by rw [VarInt.toNat_high]; omega) (ih hdiv)
      have hval : (n % 128 + 128) % 128 + 128 * (n / 128) = n := by omega
      rw [VarInt.toNat_high, hval] at hmore
      rwa [VarInt.encode_of_ge (Nat.not_lt.mp hn)]

/-- A length with one byte too many is read without its last byte. -/
theorem lengthBytes_long {left n : ℕ} (hge : 128 ^ (left + 1) ≤ n) (hlt : n < 128 ^ (left + 2)) :
    ∃ len, VarInt.encode n = len ++ [UInt8.ofNat (n / 128 ^ (left + 1))] ∧ len.length = left + 1 ∧
      LengthBytes left len (n % 128 ^ (left + 1)) := by
  induction left generalizing n with
  | zero =>
    have hdiv : n / 128 < 128 := Nat.div_lt_of_lt_mul hlt
    refine ⟨[UInt8.ofNat (n % 128 + 128)], ?_, rfl, ?_⟩
    · rw [VarInt.encode_of_ge (by simpa using hge), VarInt.encode_of_lt hdiv]
      rfl
    · have hstop : LengthBytes 0 [UInt8.ofNat (n % 128 + 128)] ((UInt8.ofNat (n % 128 + 128)).toNat % 128) :=
        .stop (.inr rfl)
      have hval : (n % 128 + 128) % 128 = n % 128 ^ (0 + 1) := by
        rw [Nat.zero_add, pow_one]
        omega
      rwa [VarInt.toNat_high, hval] at hstop
  | succ left ih =>
    have hpow : 128 ^ (left + 1 + 1) = 128 * 128 ^ (left + 1) := pow_succ' 128 (left + 1)
    have hdiv : 128 ^ (left + 1) ≤ n / 128 := by
      rw [Nat.le_div_iff_mul_le (by decide), Nat.mul_comm, ← hpow]
      exact hge
    have hdiv' : n / 128 < 128 ^ (left + 2) := Nat.div_lt_of_lt_mul (by rwa [pow_succ'] at hlt)
    obtain ⟨len, hencode, hlen, hbytes⟩ := ih hdiv hdiv'
    have hn : 128 ≤ n := le_trans (by rw [hpow]; exact Nat.le_mul_of_pos_right _ (by positivity)) hge
    refine ⟨UInt8.ofNat (n % 128 + 128) :: len, ?_, by rw [List.length_cons, hlen], ?_⟩
    · rw [VarInt.encode_of_ge hn, hencode, Nat.div_div_eq_div_mul, ← hpow]
      rfl
    · have hmore := LengthBytes.more (b := UInt8.ofNat (n % 128 + 128))
        (by rw [VarInt.toNat_high]; omega) hbytes
      have hval : (n % 128 + 128) % 128 + 128 * (n / 128 % 128 ^ (left + 1)) = n % 128 ^ (left + 1 + 1) := by
        rw [hpow, Nat.mod_mul]
        omega
      rwa [VarInt.toNat_high, hval] at hmore

/-! ## The cuts -/

namespace AnyFrame

theorem fixedByte_type (f : AnyFrame) : f.fixedByte >>> 4 = UInt8.ofNat f.msgType :=
  (fixedByte_fields f.fixedFlags f.msgType).1

theorem hasTopics_iff (f : AnyFrame) :
    f.HasTopics ↔ f.fixedByte >>> 4 = SUBSCRIBE ∨ f.fixedByte >>> 4 = UNSUBSCRIBE := by
  have htype : ∀ t : Fin 16, (UInt8.ofNat t = SUBSCRIBE ∨ UInt8.ofNat t = UNSUBSCRIBE) ↔ t = 8 ∨ t = 10 := by
    decide
  rw [fixedByte_type, htype]
  cases f with
  | client f =>
    cases f with
    | ack kind f mid => cases kind <;> simp [HasTopics, msgType, Frame.msgType, AckKind.msgType]
    | _ => simp [HasTopics, msgType, Frame.msgType]
  | _ => simp [HasTopics, msgType]

/-- The `case` of the frame's type, on a frame that declares `length`. -/
def read (f : AnyFrame) (length : ℕ) : Reader PackErr Variable :=
  readVariable (f.fixedByte >>> 4) ((f.fixedByte &&& 15 &&& 7) >>> 1) length

variable {f : AnyFrame} {v : Variable} {length : ℕ} {b rest : List UInt8}

theorem strict_read (h : ¬ f.HasTopics) (length : ℕ) : Strict (f.read length) := by
  rw [hasTopics_iff, not_or] at h
  exact strict_readVariable h.1 h.2 _ _

theorem read_topics_ok_iff (h : f.HasTopics) (length : ℕ) (b : List UInt8) :
    (∃ v t, f.read length b = .ok v t) ↔ 2 ≤ b.length :=
  readVariable_topics_ok_iff (f.hasTopics_iff.mp h) _ length b

/-- The body of a frame is read to its end. -/
theorem rest_eq_nil (h : f.read f.body.length f.body = .ok v rest) : rest = [] := by
  have hsized : Sized (f.fixedByte >>> 4) ((f.fixedByte &&& 15 &&& 7) >>> 1) f.body.length f.body →
      rest = [] := by
    intro hsized
    obtain ⟨bs, hbs, hlen⟩ := takes_readVariable.mpr hsized v rest h
    have hlength := congrArg List.length hbs
    rw [List.length_append, hlen] at hlength
    exact List.length_eq_zero_iff.mp (by omega)
  cases f with
  | client f =>
    obtain ⟨htype, -, hqos, -⟩ := fixedByte_fields f.fixedFlags f.msgType
    have hreads := readVariable_reads f []
    rw [← htype, ← hqos, List.append_nil] at hreads
    exact (EStateM.Result.ok.inj (h.symm.trans hreads)).2
  | connack f reserved returnCode => exact hsized (by rw [fixedByte_type]; trivial)
  | suback f mid codes => exact hsized (by rw [fixedByte_type]; trivial)
  | unsuback f mid => exact hsized (by rw [fixedByte_type]; trivial)
  | pingresp f => exact hsized (by rw [fixedByte_type]; trivial)

theorem length_encodeOption_le (o : Option MqttString) : (encodeOption o).length ≤ 65537 := by
  cases o with
  | none => exact Nat.zero_le _
  | some s =>
    have hshort := s.short
    rw [encodeOption, Option.map_some, Option.getD_some, length_encode]
    omega

theorem length_encodeWill_le (w : Option (MqttString × MqttString)) : (encodeWill w).length ≤ 131074 := by
  cases w with
  | none => exact Nat.zero_le _
  | some p =>
    have htopic := p.1.short
    have hmsg := p.2.short
    rw [encodeWill, Option.map_some, Option.getD_some, List.length_append, length_encode, length_encode]
    omega

/-- A CONNECT never needs a fourth length byte. -/
theorem length_connect_lt (c : ConnectBody) : c.encode.length < 2 ^ 21 := by
  have hprotocol := c.protocol.short
  have hid := c.id_le
  have hwill := length_encodeWill_le c.will
  have huser := length_encodeOption_le c.userName
  have hpassword := length_encodeOption_le c.password
  rw [length_connectBody]
  omega

theorem misread_publish {dup retain : Bool} {qos : Fin 3} {p : PublishBody}
    (hsmall : (p.encode qos).length < 2 ^ 28)
    (hread : (client (.publish dup retain qos p)).read ((p.encode qos).length % 2 ^ 21)
      (UInt8.ofNat ((p.encode qos).length / 2 ^ 21) :: p.encode qos) = .ok v rest)
    {q : List UInt8} (hq : q <+: UInt8.ofNat ((p.encode qos).length / 2 ^ 21) :: p.encode qos) :
    (∃ v t, (client (.publish dup retain qos p)).read ((p.encode qos).length % 2 ^ 21) q = .ok v t) ↔
      max (2 + ((p.encode qos).length / 2 ^ 21 * 256 + p.topic.bytes.length / 256))
        ((p.encode qos).length % 2 ^ 21) ≤ q.length := by
  have hstrict : Strict ((client (.publish dup retain qos p)).read ((p.encode qos).length % 2 ^ 21)) :=
    strict_read id _
  rw [hstrict.ok_iff_length hread hq]
  have hcase : ∀ length, (client (.publish dup retain qos p)).read length
      = Variable.publish <$> readPublish (((client (.publish dup retain qos p)).fixedByte &&& 15 &&& 7) >>> 1)
          length := by
    intro length
    rw [read, fixedByte_type]
    rfl
  rw [hcase] at hread
  obtain ⟨pub, hpub, -⟩ := map_eq_ok.mp hread
  obtain ⟨topic, rest', hb, -, ⟨bs, hbs, hlen⟩, -⟩ := readPublish_bytes hpub
  -- the length of the topic is the last length byte and the first byte of the true length
  have htopic : topic.bytes.length = (p.encode qos).length / 2 ^ 21 * 256 + p.topic.bytes.length / 256 := by
    have hshort := p.topic.short
    have hdiv : (p.encode qos).length / 2 ^ 21 < 128 := Nat.div_lt_of_lt_mul hsmall
    have hfirst : [UInt8.ofNat ((p.encode qos).length / 2 ^ 21),
        UInt8.ofNat (p.topic.bytes.length % 65536 / 256)] = putUint16 topic.bytes.length :=
      congrArg (List.take 2) hb
    have hval := congrArg uint16 hfirst
    rw [uint16_putUint16 topic.short] at hval
    rw [← hval, uint16, VarInt.toNat_low hdiv, UInt8.toNat_ofNat']
    omega
  have hlength := congrArg List.length hbs
  rw [List.length_append, hlen, htopic] at hlength
  rw [hlength, Nat.add_le_add_iff_right]

theorem misread_suback {g : FixedFlags} {mid : UInt16} {codes : List UInt8}
    (hread : (suback g mid codes).read length b = .ok v rest) {q : List UInt8} (hq : q <+: b) :
    (∃ v t, (suback g mid codes).read length q = .ok v t) ↔ 3 ≤ q.length := by
  have hstrict : Strict ((suback g mid codes).read length) := strict_read id _
  rw [hstrict.ok_iff_length hread hq]
  have hcase : (suback g mid codes).read length = Variable.suback <$> readSuback SUBACK length := by
    rw [read, fixedByte_type]
    rfl
  rw [hcase] at hread
  obtain ⟨ack, hack, -⟩ := map_eq_ok.mp hread
  have hthree : length = 3 := by
    by_contra hne
    rw [readSuback, if_neg hne] at hack
    cases hack
  obtain ⟨bs, rfl, hlen⟩ := takes_readSuback ack rest hack
  rw [List.length_append, hlen, hthree, Nat.add_le_add_iff_right]

/-- With a fourth length byte the decoder needs less than the frame. -/
theorem misread_spec (hlong : 2 ^ 21 ≤ f.body.length) (hsmall : f.body.length < 2 ^ 28)
    (hread : f.read (f.body.length % 2 ^ 21) (UInt8.ofNat (f.body.length / 2 ^ 21) :: f.body) = .ok v rest)
    {q : List UInt8} (hq : q <+: UInt8.ofNat (f.body.length / 2 ^ 21) :: f.body) :
    (∃ v t, f.read (f.body.length % 2 ^ 21) q = .ok v t) ↔ f.misread ≤ q.length := by
  have htwo : ¬ 2 ^ 21 ≤ 2 := by decide
  cases f with
  | client f =>
    cases f with
    | subscribe f mid topics =>
      exact read_topics_ok_iff (f := client (.subscribe f mid topics)) trivial _ q
    | unsubscribe f mid topics =>
      exact read_topics_ok_iff (f := client (.unsubscribe f mid topics)) trivial _ q
    | publish dup retain qos p => exact misread_publish hsmall hread hq
    | connect f c => exact absurd (length_connect_lt c) (Nat.not_lt.mpr hlong)
    | ack kind f mid => exact absurd hlong htwo
    | pingreq f => exact absurd (hlong.trans (Nat.zero_le 2)) htwo
    | disconnect f => exact absurd (hlong.trans (Nat.zero_le 2)) htwo
  | connack f reserved returnCode => exact absurd hlong htwo
  | suback f mid codes => exact misread_suback hread hq
  | unsuback f mid => exact absurd hlong htwo
  | pingresp f => exact absurd (hlong.trans (Nat.zero_le 2)) htwo

end AnyFrame

/-- **Truncated frames.** For every well-formed frame that the decoder accepts and every beginning of it that
is followed by the end of the stream, the decoder returns an error exactly if the beginning is shorter than
what the decoder needs: the whole frame, unless it has a topic list or a fourth length byte. -/
theorem truncated_rejected_iff (maxPackLength : ℤ) (f : AnyFrame) (hsmall : f.body.length < 2 ^ 28)
    (haccept : ∃ pack rest, readPack maxPackLength f.encode = .ok pack rest) {p : List UInt8}
    (hp : p <+: f.encode) : (∃ e t, readPack maxPackLength p = .error e t) ↔ p.length < f.needed := by
  obtain ⟨pack, rest, hpack⟩ := haccept
  obtain ⟨fixed, len, b, n, v, hs, hlen, hmax, hv, -⟩ := readPack_eq_ok.mp hpack
  obtain ⟨rfl, htail⟩ := List.cons.inj hs
  have hpow : 128 ^ (2 + 1) = 2 ^ 21 := by norm_num
  by_cases hshort : f.body.length < 2 ^ 21
  · have hlen' : LengthBytes 2 (VarInt.encode f.body.length) f.body.length :=
      lengthBytes_encode (hpow ▸ hshort)
    obtain ⟨rfl, rfl⟩ := hlen'.unique hlen htail
    rw [AnyFrame.needed, if_pos hshort]
    split
    · next htopics =>
      exact readPack_rejects_iff hlen' hmax hp fun q _ => AnyFrame.read_topics_ok_iff htopics _ q
    · next htopics =>
      obtain rfl := AnyFrame.rest_eq_nil hv
      have hlength : f.encode.length = 1 + (VarInt.encode f.body.length).length + f.body.length := by
        rw [AnyFrame.encode, List.length_cons, List.length_append]
        omega
      rw [hlength]
      exact readPack_rejects_iff hlen' hmax hp fun q hq =>
        (AnyFrame.strict_read htopics _).ok_iff_length hv hq
  · -- the last of the four length bytes is left for the body
    have hlong := Nat.not_lt.mp hshort
    obtain ⟨len', hencode, hlen3, hlen'⟩ : ∃ len', VarInt.encode f.body.length
        = len' ++ [UInt8.ofNat (f.body.length / 2 ^ 21)] ∧ len'.length = 3 ∧
          LengthBytes 2 len' (f.body.length % 2 ^ 21) := by
      have hexists := @lengthBytes_long 2 f.body.length (by rwa [hpow]) (by omega)
      rwa [hpow] at hexists
    have hbytes : f.encode
        = f.fixedByte :: (len' ++ (UInt8.ofNat (f.body.length / 2 ^ 21) :: f.body)) := by
      rw [AnyFrame.encode, hencode, List.append_assoc, List.singleton_append]
    rw [hbytes] at hp
    have htail' : len' ++ (UInt8.ofNat (f.body.length / 2 ^ 21) :: f.body) = len ++ b := by
      rw [← htail, hencode, List.append_assoc, List.singleton_append]
    obtain ⟨rfl, rfl⟩ := hlen'.unique hlen htail'
    rw [AnyFrame.needed, if_neg hshort, ← hlen3]
    exact readPack_rejects_iff hlen' hmax hp fun q hq => AnyFrame.misread_spec hlong hsmall hv hq

/-- A PUBLISH of the topic `a`. -/
def shortPublish : AnyFrame :=
  .client (.publish false false 0 ⟨⟨[97], by decide⟩, by decide, 0, [1]⟩)

theorem truncated_rejected_iff_publish :
    (∃ e t, readPack 1024 [48, 4, 0, 1, 97] = .error e t) ↔ [48, 4, 0, 1, 97].length < shortPublish.needed := by
  have haccept : readPack 1024 shortPublish.encode
      = .ok ⟨3, 0, 0, 0, 4, .publish { topicName := some [97], msg := [1] }⟩ [] := by decide +kernel
  exact truncated_rejected_iff 1024 shortPublish (by decide) ⟨_, _, haccept⟩ ⟨[1], by decide +kernel⟩

/-- A SUBSCRIBE to one topic. -/
def shortSubscribe : AnyFrame := .client (.subscribe ⟨false, 1, false⟩ 8 [(⟨[97], by decide⟩, 0)])

/-- An UNSUBSCRIBE of one topic. -/
def shortUnsubscribe : AnyFrame := .client (.unsubscribe ⟨false, 1, false⟩ 8 [⟨[97, 98], by decide⟩])

/-- Without its last byte a SUBSCRIBE is accepted with no topic, and an UNSUBSCRIBE with a topic that was
not sent. -/
theorem truncated_accepted :
    shortSubscribe.encode = [130, 6, 0, 8, 0, 1, 97, 0] ∧
    readPack 1024 [130, 6, 0, 8, 0, 1, 97] = .ok ⟨8, 0, 1, 0, 6, .subscribe ⟨8, []⟩⟩ [] ∧
    shortUnsubscribe.encode = [162, 6, 0, 8, 0, 2, 97, 98] ∧
    readPack 1024 [162, 6, 0, 8, 0, 2, 97] = .ok ⟨10, 0, 1, 0, 6, .unsubscribe ⟨8, [⟨[97, 0], 0⟩]⟩⟩ [] := by
  decide +kernel

end Vmqant.Mqtt
