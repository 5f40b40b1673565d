import Vmqant.Gate.Mqtt.Grammar
import Vmqant.Gate.Mqtt.Read

/-!
# What each reader of the decoder accepts

One specification for each piece of `ReadPack`, as an equivalence: the piece succeeds exactly when
the stream starts with the bytes it is for, and then leaves exactly what follows them. The decoding
of well-formed frames reads these from right to left, the analysis of arbitrary input from left to
right.
-/

namespace Vmqant.Mqtt

open ByteStream Grammar

/-! ## Integers and strings -/

theorem readInt_eq_ok {s s' : List UInt8} {n : ℕ} :
    readInt s = .ok n s' ↔ n < 65536 ∧ s = putUint16 n ++ s' := by
  rw [readInt, bind_eq_ok]
  constructor
  · rintro ⟨buf, s₁, hbuf, hn⟩
    obtain ⟨rfl, hlen⟩ := readFull_eq_ok.mp hbuf
    obtain ⟨a, b, rfl⟩ := List.length_eq_two.mp hlen
    obtain ⟨rfl, rfl⟩ : uint16 [a, b] = n ∧ s₁ = s' := by simpa [pure_apply] using hn
    exact ⟨uint16_lt _, by rw [putUint16_uint16]⟩
  · rintro ⟨hn, rfl⟩
    refine ⟨putUint16 n, s', readFull_eq_ok.mpr ⟨rfl, rfl⟩, ?_⟩
    rw [uint16_putUint16 hn]
    rfl

theorem readInt_reads {n : ℕ} (h : n < 65536) : Reads readInt (putUint16 n) n :=
  fun _ => readInt_eq_ok.mpr ⟨h, rfl⟩

theorem readInt_uint16 (n : UInt16) : Reads readInt (putUint16 n.toNat) n.toNat :=
  readInt_reads n.toNat_lt

@[simp] theorem length_encode (s : MqttString) : s.encode.length = 2 + s.bytes.length := by
  simp [MqttString.encode]

theorem readString_eq_ok {s s' : List UInt8} {r : GoString × ℕ} :
    readString s = .ok r s' ↔
      ∃ str : MqttString, s = str.encode ++ s' ∧ r = (str.bytes, str.bytes.length) := by
  rw [readString, bind_eq_ok]
  constructor
  · rintro ⟨nn, s₁, hnn, hr⟩
    obtain ⟨hlt, rfl⟩ := readInt_eq_ok.mp hnn
    by_cases hpos : nn > 0
    · rw [if_pos hpos, bind_eq_ok] at hr
      obtain ⟨buf, s₂, hbuf, hr⟩ := hr
      obtain ⟨rfl, rfl⟩ := readFull_eq_ok.mp hbuf
      obtain ⟨rfl, rfl⟩ : (buf, buf.length) = r ∧ s₂ = s' := by simpa [pure_apply] using hr
      exact ⟨⟨buf, hlt⟩, by simp [MqttString.encode], rfl⟩
    · rw [if_neg hpos] at hr
      obtain rfl : nn = 0 := by omega
      obtain ⟨rfl, rfl⟩ : ([], 0) = r ∧ s₁ = s' := by simpa [pure_apply] using hr
      exact ⟨⟨[], hlt⟩, by simp [MqttString.encode], rfl⟩
  · rintro ⟨str, rfl, rfl⟩
    refine ⟨str.bytes.length, str.bytes ++ s', ?_, ?_⟩
    · exact readInt_eq_ok.mpr ⟨str.short, by simp [MqttString.encode]⟩
    · by_cases hpos : str.bytes.length > 0
      · rw [if_pos hpos, bind_eq_ok]
        exact ⟨str.bytes, s', readFull_eq_ok.mpr ⟨rfl, rfl⟩, rfl⟩
      · have hnil : str.bytes = [] := List.length_eq_zero_iff.mp (by omega)
        rw [if_neg hpos, hnil]
        rfl

theorem readString_reads (s : MqttString) :
    Reads readString s.encode (s.bytes, s.bytes.length) :=
  fun _ => readString_eq_ok.mpr ⟨s, rfl, rfl⟩

/-! ## The optional fields of a CONNECT -/

/-- What `playload_len` loses at the will: the bytes of its strings without their prefixes. -/
def willLen (w : Option (MqttString × MqttString)) : ℕ :=
  (w.map fun p => p.1.bytes.length + p.2.bytes.length).getD 0

/-- What `playload_len` loses at an optional string. -/
def optionLen (o : Option MqttString) : ℕ := (o.map (·.bytes.length)).getD 0

theorem readWill_eq_ok {willFlag : Bool} {playloadLen : ℤ} {s s' : List UInt8}
    {r : Option GoString × Option GoString × ℤ} :
    readWill willFlag playloadLen s = .ok r s' ↔
      ∃ w : Option (MqttString × MqttString), w.isSome = willFlag ∧
        (∀ p ∈ w, (p.1.bytes.length : ℤ) ≤ playloadLen) ∧ s = encodeWill w ++ s' ∧
        r = (w.map (·.1.bytes), w.map (·.2.bytes), playloadLen - willLen w) := by
  unfold readWill
  cases willFlag with
  | false =>
    simp only [Bool.false_eq_true, if_false, pure_apply]
    constructor
    · intro h
      obtain ⟨rfl, rfl⟩ : (none, none, playloadLen) = r ∧ s = s' := by simpa using h
      exact ⟨none, rfl, by simp, by simp [encodeWill], by simp [willLen]⟩
    · rintro ⟨w, hw, -, rfl, rfl⟩
      obtain rfl : w = none := by simpa using hw
      simp [encodeWill, willLen]
  | true =>
    rw [if_pos rfl, bind_eq_ok]
    constructor
    · rintro ⟨⟨topic, n⟩, s₁, htopic, hr⟩
      obtain ⟨t, rfl, hn⟩ := readString_eq_ok.mp htopic
      obtain ⟨rfl, rfl⟩ : topic = t.bytes ∧ n = t.bytes.length := by simpa using hn
      dsimp only at hr
      split at hr
      · cases hr
      · next hfit =>
        obtain ⟨⟨msg, n⟩, s₂, hmsg, hr⟩ := bind_eq_ok.mp hr
        obtain ⟨m, rfl, hn⟩ := readString_eq_ok.mp hmsg
        obtain ⟨rfl, rfl⟩ : msg = m.bytes ∧ n = m.bytes.length := by simpa using hn
        obtain ⟨rfl, rfl⟩ := EStateM.Result.ok.inj hr
        refine ⟨some (t, m), rfl, ?_, by simp [encodeWill], ?_⟩
        · simp only [Option.mem_some_iff, forall_eq']
          omega
        · simp [willLen, sub_sub]
    · rintro ⟨w, hw, hfit, rfl, rfl⟩
      obtain ⟨⟨t, m⟩, rfl⟩ := Option.isSome_iff_exists.mp hw
      have hle : (t.bytes.length : ℤ) ≤ playloadLen := hfit (t, m) rfl
      refine ⟨(t.bytes, t.bytes.length), m.encode ++ s', ?_, ?_⟩
      · exact readString_eq_ok.mpr ⟨t, by simp [encodeWill], rfl⟩
      · dsimp only
        rw [if_neg (by omega), bind_eq_ok]
        refine ⟨(m.bytes, m.bytes.length), s', readString_eq_ok.mpr ⟨m, rfl, rfl⟩, ?_⟩
        simp [pure_apply, willLen, sub_sub]

theorem readCredential_eq_ok {flag : Bool} {playloadLen : ℤ} {s s' : List UInt8}
    {r : Option GoString × ℤ} :
    readCredential flag playloadLen s = .ok r s' ↔
      ∃ o : Option MqttString, o.isSome = (flag && decide (playloadLen > 0)) ∧
        (∀ str ∈ o, (str.bytes.length : ℤ) ≤ playloadLen) ∧ s = encodeOption o ++ s' ∧
        r = (o.map (·.bytes), playloadLen - optionLen o) := by
  unfold readCredential
  by_cases hread : (flag && decide (playloadLen > 0)) = true
  · rw [if_pos hread, hread, bind_eq_ok]
    constructor
    · rintro ⟨⟨str, n⟩, s₁, hstr, hr⟩
      obtain ⟨t, rfl, hn⟩ := readString_eq_ok.mp hstr
      obtain ⟨rfl, rfl⟩ : str = t.bytes ∧ n = t.bytes.length := by simpa using hn
      dsimp only at hr
      split at hr
      · cases hr
      · obtain ⟨rfl, rfl⟩ := EStateM.Result.ok.inj hr
        refine ⟨some t, rfl, ?_, by simp [encodeOption], by simp [optionLen]⟩
        simp only [Option.mem_some_iff, forall_eq']
        omega
    · rintro ⟨o, ho, hfit, rfl, rfl⟩
      obtain ⟨t, rfl⟩ := Option.isSome_iff_exists.mp ho
      have hle : (t.bytes.length : ℤ) ≤ playloadLen := hfit t rfl
      refine ⟨(t.bytes, t.bytes.length), s', ?_, ?_⟩
      · exact readString_eq_ok.mpr ⟨t, by simp [encodeOption], rfl⟩
      · dsimp only
        rw [if_neg (by omega)]
        simp [pure_apply, optionLen]
  · rw [if_neg hread, Bool.eq_false_iff.mpr hread]
    constructor
    · intro h
      obtain ⟨rfl, rfl⟩ := EStateM.Result.ok.inj h
      exact ⟨none, rfl, by simp, by simp [encodeOption], by simp [optionLen]⟩
    · rintro ⟨o, ho, -, rfl, rfl⟩
      obtain rfl : o = none := by simpa using ho
      simp [pure_apply, encodeOption, optionLen]

/-! ## CONNECT -/

/-- The pieces `case CONNECT` cuts the payload into, whatever length the frame declares. -/
structure PayloadParts where
  id : MqttString
  will : Option (MqttString × MqttString)
  uname : Option MqttString
  upassword : Option MqttString

namespace PayloadParts

def bytes (c : PayloadParts) : List UInt8 :=
  c.id.encode ++ (encodeWill c.will ++ (encodeOption c.uname ++ encodeOption c.upassword))

/-- `playload_len` after the client identifier, when it is `len` before. -/
def afterId (c : PayloadParts) (len : ℤ) : ℤ := len - c.id.bytes.length

/-- `playload_len` after the will. -/
def afterWill (c : PayloadParts) (len : ℤ) : ℤ := c.afterId len - willLen c.will

/-- `playload_len` after the user name. -/
def afterUname (c : PayloadParts) (len : ℤ) : ℤ := c.afterWill len - optionLen c.uname

/-- The checks on the payload, `playload_len` being `len` before it: the client identifier is in
range, the optional pieces are there when their flag is set (for the credentials: and
`playload_len` is still positive), and none is longer than what is left of `playload_len`. -/
structure Passes (c : PayloadParts) (conn : Connect) (len : ℤ) : Prop where
  id_pos : 1 ≤ c.id.bytes.length
  id_le : c.id.bytes.length ≤ 64
  will_iff : c.will.isSome = conn.willFlag
  will_le : ∀ p ∈ c.will, (p.1.bytes.length : ℤ) ≤ c.afterId len
  uname_iff : c.uname.isSome = (conn.userName && decide (c.afterWill len > 0))
  uname_le : ∀ u ∈ c.uname, (u.bytes.length : ℤ) ≤ c.afterWill len
  upassword_iff : c.upassword.isSome = (conn.password && decide (c.afterUname len > 0))
  upassword_le : ∀ u ∈ c.upassword, (u.bytes.length : ℤ) ≤ c.afterUname len

/-- The payload stored in `conn`. -/
def store (c : PayloadParts) (conn : Connect) : Connect :=
  { conn with
    id := some c.id.bytes
    willTopic := c.will.map (·.1.bytes)
    willMsg := c.will.map (·.2.bytes)
    uname := c.uname.map (·.bytes)
    upassword := c.upassword.map (·.bytes) }

end PayloadParts

theorem readConnectPayload_reads {conn : Connect} {len : ℤ} {c : PayloadParts}
    (hc : c.Passes conn len) : Reads (readConnectPayload conn len) c.bytes (c.store conn) := by
  have hpos := hc.id_pos
  have hle := hc.id_le
  apply (readString_reads c.id).bind
  dsimp only
  rw [if_neg (by omega), if_neg (by omega)]
  refine Reads.bind (fun rest => readWill_eq_ok.mpr ⟨c.will, hc.will_iff, hc.will_le, rfl, rfl⟩) ?_
  refine Reads.bind (fun rest => readCredential_eq_ok.mpr
    ⟨c.uname, hc.uname_iff, hc.uname_le, rfl, rfl⟩) ?_
  refine Reads.bind_nil (fun rest => readCredential_eq_ok.mpr
    ⟨c.upassword, hc.upassword_iff, hc.upassword_le, rfl, rfl⟩) ?_
  exact Reads.pure _

theorem readConnectPayload_eq_ok {conn conn' : Connect} {len : ℤ} {s s' : List UInt8} :
    readConnectPayload conn len s = .ok conn' s' ↔
      ∃ c : PayloadParts, c.Passes conn len ∧ s = c.bytes ++ s' ∧ conn' = c.store conn := by
  constructor
  · intro h
    obtain ⟨⟨id, n⟩, s₁, hid, h₁⟩ := bind_eq_ok.mp h
    obtain ⟨i, rfl, hi⟩ := readString_eq_ok.mp hid
    obtain ⟨rfl, rfl⟩ : id = i.bytes ∧ n = i.bytes.length := by simpa using hi
    dsimp only at h₁
    by_cases hident : i.bytes.length > 64 ∨ i.bytes.length < 1
    · rw [if_pos hident] at h₁
      cases h₁
    rw [if_neg hident, if_neg (by omega)] at h₁
    obtain ⟨⟨wt, wm, pw⟩, s₂, hwill, h₂⟩ := bind_eq_ok.mp h₁
    obtain ⟨⟨un, pu⟩, s₃, huname, h₃⟩ := bind_eq_ok.mp h₂
    obtain ⟨⟨up, pp⟩, s₄, hpass, h₄⟩ := bind_eq_ok.mp h₃
    obtain ⟨w, hw, hwle, rfl, hweq⟩ := readWill_eq_ok.mp hwill
    cases hweq
    obtain ⟨u, hu, hule, rfl, hueq⟩ := readCredential_eq_ok.mp huname
    cases hueq
    obtain ⟨q, hq, hqle, rfl, hqeq⟩ := readCredential_eq_ok.mp hpass
    cases hqeq
    obtain ⟨rfl, rfl⟩ := EStateM.Result.ok.inj h₄
    have hpos : 1 ≤ i.bytes.length := by omega
    have hle : i.bytes.length ≤ 64 := by omega
    exact ⟨⟨i, w, u, q⟩, ⟨hpos, hle, hw, hwle, hu, hule, hq, hqle⟩,
      by simp [PayloadParts.bytes], rfl⟩
  · rintro ⟨c, hc, rfl, rfl⟩
    exact readConnectPayload_reads hc s'

/-- The variable header of a CONNECT and its payload pieces. -/
structure ConnectParts where
  protocol : MqttString
  version : UInt8
  flags : UInt8
  keepAlive : ℕ
  keepAlive_lt : keepAlive < 65536
  payload : PayloadParts

namespace ConnectParts

def bytes (c : ConnectParts) : List UInt8 :=
  c.protocol.encode ++ ([c.version] ++ ([c.flags] ++ (putUint16 c.keepAlive ++ c.payload.bytes)))

/-- The variable header as `parse_flags` leaves it. -/
def parsed (c : ConnectParts) : Connect :=
  parseFlags c.flags
    { protocol := some c.protocol.bytes, version := c.version, keepAliveTimer := c.keepAlive }

/-- The checks of `case CONNECT` on a frame that declares `length`. -/
structure Passes (c : ConnectParts) (length : ℕ) : Prop where
  protocol_le : (c.protocol.bytes.length : ℤ) ≤ length - 4
  payload : c.payload.Passes c.parsed (length - 2 - c.protocol.bytes.length - 4)

end ConnectParts

theorem readConnect_parts {length : ℕ} {c : ConnectParts} (hc : c.Passes length) :
    Reads (readConnect length) c.bytes (c.payload.store c.parsed) := by
  have hle := hc.protocol_le
  apply (readString_reads c.protocol).bind
  dsimp only
  rw [if_neg (by omega)]
  apply (Reads.readByte _).bind
  apply (Reads.readByte _).bind
  apply (readInt_reads c.keepAlive_lt).bind
  exact readConnectPayload_reads hc.payload

theorem readConnect_eq_ok {length : ℕ} {s s' : List UInt8} {conn : Connect} :
    readConnect length s = .ok conn s' ↔
      ∃ c : ConnectParts, c.Passes length ∧ s = c.bytes ++ s' ∧
        conn = c.payload.store c.parsed := by
  constructor
  · intro h
    obtain ⟨⟨protocol, n⟩, s₁, hprotocol, h₁⟩ := bind_eq_ok.mp h
    obtain ⟨p, rfl, hp⟩ := readString_eq_ok.mp hprotocol
    obtain ⟨rfl, rfl⟩ : protocol = p.bytes ∧ n = p.bytes.length := by simpa using hp
    dsimp only at h₁
    by_cases hrange : (p.bytes.length : ℤ) > length - 4
    · rw [if_pos hrange] at h₁
      cases h₁
    rw [if_neg hrange] at h₁
    obtain ⟨version, s₂, hversion, h₂⟩ := bind_eq_ok.mp h₁
    obtain ⟨flags, s₃, hflags, h₃⟩ := bind_eq_ok.mp h₂
    obtain ⟨timer, s₄, htimer, h₄⟩ := bind_eq_ok.mp h₃
    obtain rfl := readByte_eq_ok.mp hversion
    obtain rfl := readByte_eq_ok.mp hflags
    obtain ⟨hlt, rfl⟩ := readInt_eq_ok.mp htimer
    obtain ⟨c, hc, rfl, rfl⟩ := readConnectPayload_eq_ok.mp h₄
    have hle : (p.bytes.length : ℤ) ≤ length - 4 := by omega
    exact ⟨⟨p, version, flags, timer, hlt, c⟩, ⟨hle, hc⟩, by simp [ConnectParts.bytes], rfl⟩
  · rintro ⟨c, hc, rfl, rfl⟩
    exact readConnect_parts hc s'

/-! ## Topic lists -/

/-- The bytes of a topic in a SUBSCRIBE. -/
def topicBytes (t : Topics) : List UInt8 := putUint16 t.name.length ++ (t.name ++ [t.qos])

/-- The bytes of a topic in an UNSUBSCRIBE. -/
def unTopicBytes (t : Topics) : List UInt8 := putUint16 t.name.length ++ t.name

/-- What a round of a topic loop does: it reads a complete entry, and it takes everything that is
left when there is none. -/
structure EntrySpec (entry : List UInt8 → Option (Topics × ℕ) × List UInt8)
    (enc : Topics → List UInt8) (valid : Topics → Prop) : Prop where
  le_length : ∀ t, 2 ≤ (enc t).length
  read : ∀ t, valid t → ∀ rest, entry (enc t ++ rest) = (some (t, (enc t).length - 2), rest)
  cut : ∀ s, (∀ t rest, valid t → s ≠ enc t ++ rest) → (entry s).2 = []
  nil : entry [] = (none, [])

theorem readInt_cases (s : List UInt8) :
    (s.length < 2 ∧ ∃ e, readInt s = .error e []) ∨
      ∃ n s₁, n < 65536 ∧ s = putUint16 n ++ s₁ ∧ readInt s = .ok n s₁ := by
  cases h : readInt s with
  | ok n s₁ =>
    obtain ⟨hn, hs⟩ := readInt_eq_ok.mp h
    exact .inr ⟨n, s₁, hn, hs, rfl⟩
  | error e s₁ =>
    rw [readInt, bind_apply] at h
    cases hfull : (readFull 2 : Reader PackErr (List UInt8)) s with
    | ok buf s₂ =>
      rw [hfull] at h
      cases h
    | error e₂ s₂ =>
      rw [hfull] at h
      obtain ⟨hlt, -, rfl⟩ := readFull_eq_error.mp hfull
      obtain ⟨-, rfl⟩ := EStateM.Result.error.inj h
      exact .inl ⟨hlt, e, rfl⟩

theorem readTopic_spec :
    EntrySpec readTopic topicBytes fun t => t.name.length < 65536 where
  le_length t := by simp [topicBytes]
  read t ht rest := by
    have hread : readInt (topicBytes t ++ rest)
        = .ok t.name.length (t.name ++ (t.qos :: rest)) := by
      simpa [topicBytes] using readInt_reads ht (t.name ++ (t.qos :: rest))
    rw [readTopic, hread]
    simp [readByte, fillBuf_append, topicBytes]
  cut s hs := by
    rcases readInt_cases s with ⟨-, e, he⟩ | ⟨n, s₁, hn, rfl, hok⟩
    · rw [readTopic, he]
    · rw [readTopic, hok]
      -- a complete name followed by a QoS byte would have been a complete entry
      have hdrop : s₁.drop n = [] := by
        by_contra hne
        obtain ⟨q, rest, hq⟩ := List.exists_cons_of_ne_nil hne
        have hlen : (s₁.take n).length = n := by
          have : 0 < (s₁.drop n).length := List.length_pos_of_ne_nil hne
          rw [List.length_drop] at this
          rw [List.length_take]
          omega
        refine hs ⟨s₁.take n, q⟩ rest (by simpa [hlen] using hn) ?_
        simp only [topicBytes, hlen, List.append_assoc, List.singleton_append, ← hq,
          List.take_append_drop]
      simp [hdrop, readByte]
  nil := rfl

theorem readUNTopic_spec :
    EntrySpec readUNTopic unTopicBytes fun t => t.name.length < 65536 ∧ t.qos = 0 where
  le_length t := by simp [unTopicBytes]
  read t ht rest := by
    obtain ⟨name, qos⟩ := t
    obtain ⟨hlt, rfl⟩ : name.length < 65536 ∧ qos = 0 := ht
    have hread : readInt (unTopicBytes ⟨name, 0⟩ ++ rest) = .ok name.length (name ++ rest) := by
      simpa [unTopicBytes] using readInt_reads hlt (name ++ rest)
    rw [readUNTopic, hread]
    simp [fillBuf_append, unTopicBytes]
  cut s hs := by
    rcases readInt_cases s with ⟨-, e, he⟩ | ⟨n, s₁, hn, rfl, hok⟩
    · rw [readUNTopic, he]
    · rw [readUNTopic, hok]
      have hshort : s₁.length < n := by
        by_contra hge
        have hlen : (s₁.take n).length = n := by
          rw [List.length_take]
          omega
        refine hs ⟨s₁.take n, 0⟩ (s₁.drop n) ⟨by simpa [hlen] using hn, rfl⟩ ?_
        simp only [unTopicBytes, hlen, List.append_assoc, List.take_append_drop]
      simp only [List.drop_eq_nil_iff]
      omega
  nil := rfl

section TopicLoop

variable {entry : List UInt8 → Option (Topics × ℕ) × List UInt8} {enc : Topics → List UInt8}
  {valid : Topics → Prop}

/-- The loop runs through complete entries as long as `vlen` is at least two more than their
bytes. -/
theorem topicLoop_append (h : EntrySpec entry enc valid) (ts acc : List Topics)
    (hts : ∀ t ∈ ts, valid t) (vlen : ℤ) (hvlen : (ts.flatMap enc).length + 2 ≤ vlen)
    (rest : List UInt8) :
    topicLoop entry vlen acc (ts.flatMap enc ++ rest)
      = topicLoop entry (vlen - (ts.flatMap enc).length) (acc ++ ts) rest := by
  induction ts generalizing acc vlen with
  | nil => simp
  | cons t ts ih =>
    have hle := h.le_length t
    simp only [List.flatMap_cons, List.length_append, List.append_assoc] at hvlen ⊢
    push_cast at hvlen ⊢
    rw [topicLoop, if_pos (by omega), h.read t (hts t (by simp))]
    dsimp only
    rw [ih _ (fun u hu => hts u (by simp [hu])) _ (by omega)]
    congr 1
    · omega
    · simp

/-- The loop takes exactly the entries of a frame: after the last one `vlen` is 2. -/
theorem topicLoop_exact (h : EntrySpec entry enc valid) (ts : List Topics)
    (hts : ∀ t ∈ ts, valid t) (rest : List UInt8) :
    topicLoop entry (2 + (ts.flatMap enc).length) [] (ts.flatMap enc ++ rest) = (ts, rest) := by
  rw [topicLoop_append h ts [] hts _ (by omega), topicLoop, if_neg (by omega), List.nil_append]

/-- A list cut off by the end of the stream takes everything that is left. -/
theorem topicLoop_cut (h : EntrySpec entry enc valid) (acc : List Topics) (vlen : ℤ)
    (hvlen : 3 < vlen) (s : List UInt8) (hs : ∀ t rest, valid t → s ≠ enc t ++ rest) :
    (topicLoop entry vlen acc s).2 = [] := by
  have hcut := h.cut s hs
  rw [topicLoop, if_pos hvlen]
  generalize entry s = r at hcut
  obtain ⟨_ | ⟨top, n⟩, s'⟩ := r
  · exact hcut
  · obtain rfl : s' = [] := hcut
    dsimp only
    rw [topicLoop]
    split
    · rw [h.nil]
    · rfl

/-- On any input the loop runs through complete entries until `vlen` is used up, or the stream ends
inside an entry. -/
theorem topicLoop_cases (h : EntrySpec entry enc valid) (vlen : ℤ) (acc : List Topics)
    (s : List UInt8) :
    ∃ (ts : List Topics) (rest : List UInt8), (∀ t ∈ ts, valid t) ∧ s = ts.flatMap enc ++ rest ∧
      ((vlen - (ts.flatMap enc).length ≤ 3 ∧ (topicLoop entry vlen acc s).2 = rest) ∨
        (3 < vlen - (ts.flatMap enc).length ∧ (∀ t r, valid t → rest ≠ enc t ++ r) ∧
          (topicLoop entry vlen acc s).2 = [])) := by
  induction hn : vlen.toNat using Nat.strongRecOn generalizing vlen acc s with
  | ind n ih =>
    by_cases hvlen : 3 < vlen
    · by_cases hs : ∀ t rest, valid t → s ≠ enc t ++ rest
      · refine ⟨[], s, by simp, rfl, .inr ⟨by simpa using hvlen, hs, ?_⟩⟩
        exact topicLoop_cut h acc vlen hvlen s hs
      · push Not at hs
        obtain ⟨t, rest, ht, rfl⟩ := hs
        have hle := h.le_length t
        obtain ⟨ts, r, hts, rfl, hcases⟩ :=
          ih (vlen - 2 - ((enc t).length - 2 : ℕ)).toNat (by omega) _ (acc ++ [t]) rest rfl
        refine ⟨t :: ts, r, ?_, by simp, ?_⟩
        · intro u hu
          rcases List.mem_cons.mp hu with rfl | hu
          · exact ht
          · exact hts u hu
        · rw [topicLoop, if_pos hvlen, h.read t ht]
          have hvlen' : vlen - ((t :: ts).flatMap enc).length
              = vlen - 2 - ((enc t).length - 2 : ℕ) - (ts.flatMap enc).length := by
            rw [List.flatMap_cons, List.length_append]
            omega
          rw [hvlen']
          exact hcases
    · refine ⟨[], s, by simp, rfl, .inl ⟨by simpa using hvlen, ?_⟩⟩
      rw [topicLoop, if_neg hvlen]

end TopicLoop

end Vmqant.Mqtt
