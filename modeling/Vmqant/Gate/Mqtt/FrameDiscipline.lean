import Vmqant.Gate.Mqtt.Decode

/-!
# Frame discipline on untrusted input

A successful `ReadPack` should take exactly the frame: one byte of fixed header, the length bytes,
and the declared remaining length. The decoder checks the inner length fields against the declared
length in some places only, and reports no error from inside the topic loops, so this fails on
frames whose inner lengths disagree with the declared one. `frameExact_iff` says exactly on which
input it holds: `WellSized` lists, packet type by packet type, what the bytes must satisfy.
-/

namespace Vmqant.Mqtt

open ByteStream Grammar

/-! ## The claim and the condition -/

/-- The length bytes the decoder reads when it may read `left` more after the first: up to the first
byte without the top bit, and their value. -/
inductive LengthBytes : (left : ℕ) → List UInt8 → ℕ → Prop where
  | stop {left : ℕ} {b : UInt8} (h : b.toNat < 128 ∨ left = 0) :
      LengthBytes left [b] (b.toNat % 128)
  | more {left : ℕ} {b : UInt8} {bs : List UInt8} {n : ℕ} (hb : 128 ≤ b.toNat)
      (h : LengthBytes left bs n) : LengthBytes (left + 1) (b :: bs) (b.toNat % 128 + 128 * n)

/-- Whenever `ReadPack` succeeds on `s` it has taken the first byte, the length bytes, and exactly as
many bytes as the pack's length says. -/
def FrameExact (maxPackLength : ℤ) (s : List UInt8) : Prop :=
  ∀ pack s', readPack maxPackLength s = .ok pack s' →
    ∃ fixed len body, s = fixed :: (len ++ (body ++ s')) ∧ LengthBytes 2 len pack.length ∧
      body.length = pack.length

/-- The pieces of a CONNECT that pass the decoder's checks add up to the declared length. -/
def ConnectSized (length : ℕ) (b : List UInt8) : Prop :=
  ∀ (c : ConnectParts) (rest : List UInt8), b = c.bytes ++ rest → c.Passes length →
    c.bytes.length = length

/-- The topic of a QoS 0 PUBLISH does not reach past the declared length. -/
def PublishSized (qos : UInt8) (length : ℕ) (b : List UInt8) : Prop :=
  qos = 0 → ∀ (topic : MqttString) (rest : List UInt8), b = topic.encode ++ rest →
    1 ≤ topic.bytes.length → 2 + topic.bytes.length ≤ length

/-- The message id and complete entries add up to the declared length, or the stream ends inside an
entry and, by accident, exactly at the declared length. -/
def TopicsSized (enc : Topics → List UInt8) (valid : Topics → Prop) (length : ℕ)
    (b : List UInt8) : Prop :=
  2 ≤ b.length → ∃ (mid : List UInt8) (ts : List Topics) (rest : List UInt8),
    mid.length = 2 ∧ (∀ t ∈ ts, valid t) ∧ b = mid ++ (ts.flatMap enc ++ rest) ∧
      (2 + (ts.flatMap enc).length = length ∨
        ((ts.flatMap enc).length + 3 < length ∧ (∀ t r, valid t → rest ≠ enc t ++ r) ∧
          b.length = length))

/-- What the bytes `b` after the length field must satisfy for the decoder to take exactly `length`
of them. -/
def Sized (msgType qos : UInt8) (length : ℕ) (b : List UInt8) : Prop :=
  if msgType = CONNECT then ConnectSized length b
  else if msgType = PUBLISH then PublishSized qos length b
  else if msgType = SUBSCRIBE then
    TopicsSized topicBytes (fun t => t.name.length < 65536) length b
  else if msgType = UNSUBSCRIBE then
    TopicsSized unTopicBytes (fun t => t.name.length < 65536 ∧ t.qos = 0) length b
  else if msgType = PINGREQ ∨ msgType = DISCONNECT then length = 0
  else True

/-- The frame at the front of the stream declares the length its fields have, unless it declares
more than the maximum. -/
def WellSized (maxPackLength : ℤ) (s : List UInt8) : Prop :=
  ∀ (fixed : UInt8) (len b : List UInt8) (length : ℕ), s = fixed :: (len ++ b) →
    LengthBytes 2 len length → (length : ℤ) ≤ maxPackLength →
    Sized (fixed >>> 4) ((fixed &&& 15 &&& 7) >>> 1) length b

/-! ## The length field -/

theorem readLength_eq_ok {t : UInt8} {multiplier length left n : ℕ} {s s' : List UInt8} :
    readLength t multiplier length left s = .ok n s' ↔
      ∃ bs l, s = bs ++ s' ∧ LengthBytes left (t :: bs) l ∧ n = length + l * multiplier := by
  induction left generalizing t multiplier length s with
  | zero =>
    rw [readLength, toNat_and_127, pure_apply]
    constructor
    · -- no byte may follow, whatever the top bit says
      intro h
      obtain ⟨rfl, rfl⟩ := EStateM.Result.ok.inj h
      exact ⟨[], _, rfl, .stop (.inr rfl), rfl⟩
    · rintro ⟨bs, l, rfl, h, rfl⟩
      cases h with
      | stop => rfl
  | succ left ih =>
    rw [readLength, toNat_and_127, shiftRight_7_ne_zero]
    by_cases ht : 128 ≤ t.toNat
    · rw [if_pos (by simpa using ht), bind_eq_ok]
      constructor
      · rintro ⟨next, s₁, hnext, h⟩
        obtain rfl := readByte_eq_ok.mp hnext
        obtain ⟨bs, l, rfl, hl, rfl⟩ := ih.mp h
        exact ⟨next :: bs, _, rfl, .more ht hl, by ring⟩
      · rintro ⟨bs, l, rfl, h, rfl⟩
        cases h with
        | stop h => omega
        | @more _ _ bs n hb h =>
          obtain ⟨next, bs', rfl⟩ : ∃ next bs', bs = next :: bs' := by
            cases h <;> exact ⟨_, _, rfl⟩
          exact ⟨next, bs' ++ s', rfl, ih.mpr ⟨bs', n, rfl, h, by ring⟩⟩
    · rw [if_neg (by simpa using ht), pure_apply]
      constructor
      · intro h
        obtain ⟨rfl, rfl⟩ := EStateM.Result.ok.inj h
        exact ⟨[], _, rfl, .stop (.inl (by omega)), rfl⟩
      · rintro ⟨bs, l, rfl, h, rfl⟩
        cases h with
        | stop => rfl
        | more hb => omega

/-- The length bytes are determined by the stream. -/
theorem LengthBytes.unique {left n n' : ℕ} {len len' b b' : List UInt8} (h : LengthBytes left len n)
    (h' : LengthBytes left len' n') (heq : len ++ b = len' ++ b') : n = n' ∧ b = b' := by
  induction h generalizing len' n' with
  | @stop left c hc =>
    cases h' with
    | stop hc' =>
      obtain ⟨rfl, rfl⟩ := List.cons.inj heq
      exact ⟨rfl, rfl⟩
    | more hb =>
      obtain ⟨rfl, -⟩ := List.cons.inj heq
      omega
  | @more left c bs m hb h ih =>
    cases h' with
    | stop hc' =>
      obtain ⟨rfl, -⟩ := List.cons.inj heq
      omega
    | more hb' h' =>
      obtain ⟨rfl, htail⟩ := List.cons.inj heq
      obtain ⟨rfl, rfl⟩ := ih h' htail
      exact ⟨rfl, rfl⟩

theorem readPack_eq_ok {maxPackLength : ℤ} {s s' : List UInt8} {pack : Pack} :
    readPack maxPackLength s = .ok pack s' ↔
      ∃ (fixed : UInt8) (len b : List UInt8) (length : ℕ) (v : Variable),
        s = fixed :: (len ++ b) ∧ LengthBytes 2 len length ∧ (length : ℤ) ≤ maxPackLength ∧
        readVariable (fixed >>> 4) ((fixed &&& 15 &&& 7) >>> 1) length b = .ok v s' ∧
        pack = { msgType := fixed >>> 4, dupFlag := (fixed &&& 15) >>> 3,
                 qosLevel := (fixed &&& 15 &&& 7) >>> 1, retain := fixed &&& 15 &&& 7 &&& 1,
                 length, variable_ := v } := by
  constructor
  · intro h
    obtain ⟨fixed, s₁, hfixed, h₁⟩ := bind_eq_ok.mp h
    obtain ⟨t, s₂, ht, h₂⟩ := bind_eq_ok.mp h₁
    obtain ⟨length, b, hlength, h₃⟩ := bind_eq_ok.mp h₂
    obtain rfl := readByte_eq_ok.mp hfixed
    obtain rfl := readByte_eq_ok.mp ht
    obtain ⟨bs, l, rfl, hl, hval⟩ := readLength_eq_ok.mp hlength
    obtain rfl : length = l := by omega
    by_cases hmax : (length : ℤ) > maxPackLength
    · rw [if_pos hmax] at h₃
      cases h₃
    · rw [if_neg hmax] at h₃
      obtain ⟨v, s₃, hv, h₄⟩ := bind_eq_ok.mp h₃
      obtain ⟨rfl, rfl⟩ := EStateM.Result.ok.inj h₄
      exact ⟨fixed, t :: bs, b, length, v, rfl, hl, by omega, hv, rfl⟩
  · rintro ⟨fixed, len, b, length, v, rfl, hl, hmax, hv, rfl⟩
    obtain ⟨t, bs, rfl⟩ : ∃ t bs, len = t :: bs := by
      cases hl <;> exact ⟨_, _, rfl⟩
    refine bind_eq_ok.mpr ⟨fixed, _, rfl, bind_eq_ok.mpr ⟨t, _, rfl, bind_eq_ok.mpr
      ⟨length, b, readLength_eq_ok.mpr ⟨bs, length, rfl, hl, by omega⟩, ?_⟩⟩⟩
    rw [if_neg (by omega), bind_eq_ok]
    exact ⟨v, s', hv, rfl⟩

/-! ## The cases of the `switch` -/

theorem takes_readConnect {length : ℕ} {b : List UInt8} :
    Takes (readConnect length) length b ↔ ConnectSized length b := by
  constructor
  · rintro h c rest rfl hc
    obtain ⟨bs, hbs, hlen⟩ := h _ rest (readConnect_parts hc rest)
    rw [List.append_cancel_right hbs]
    exact hlen
  · intro h conn s' hconn
    obtain ⟨c, hc, rfl, -⟩ := readConnect_eq_ok.mp hconn
    exact ⟨c.bytes, rfl, h c s' rfl hc⟩

/-- A PUBLISH takes the declared length, or its topic when that reaches further; above QoS 0 the check before
the message id covers the topic too. -/
theorem readPublish_bytes {qos : UInt8} {length : ℕ} {b s' : List UInt8} {p : Publish}
    (h : readPublish qos length b = .ok p s') :
    ∃ (topic : MqttString) (rest : List UInt8), b = topic.encode ++ rest ∧ 1 ≤ topic.bytes.length ∧
      (∃ bs, b = bs ++ s' ∧ bs.length = max (2 + topic.bytes.length) length) ∧
      (qos = 0 ∨ 2 + topic.bytes.length ≤ length) := by
  obtain ⟨⟨name, n⟩, rest, htopic, h₁⟩ := bind_eq_ok.mp h
  obtain ⟨topic, rfl, hname⟩ := readString_eq_ok.mp htopic
  obtain ⟨rfl, rfl⟩ : name = topic.bytes ∧ n = topic.bytes.length := by simpa using hname
  refine ⟨topic, rest, rfl, ?_⟩
  dsimp only at h₁
  by_cases hpos : topic.bytes.length < 1
  · rw [if_pos hpos] at h₁
    cases h₁
  rw [if_neg hpos] at h₁
  refine ⟨by omega, ?_⟩
  by_cases hqos : qos > 0
  · rw [if_pos hqos] at h₁
    by_cases hshort : (length - topic.bytes.length - 2 : ℤ) < 2
    · rw [if_pos hshort] at h₁
      cases h₁
    rw [if_neg hshort] at h₁
    obtain ⟨mid, s₁, hmid, h₂⟩ := bind_eq_ok.mp h₁
    obtain ⟨-, rfl⟩ := readInt_eq_ok.mp hmid
    refine ⟨?_, .inr (by omega)⟩
    split at h₂
    · obtain ⟨-, rfl⟩ := EStateM.Result.ok.inj h₂
      refine ⟨topic.encode ++ putUint16 mid, by simp, ?_⟩
      rw [List.length_append, length_encode, length_putUint16]
      omega
    · obtain ⟨msg, s₂, hmsg, h₃⟩ := bind_eq_ok.mp h₂
      obtain ⟨rfl, hlen⟩ := readFull_eq_ok.mp hmsg
      obtain ⟨-, rfl⟩ := EStateM.Result.ok.inj h₃
      refine ⟨topic.encode ++ (putUint16 mid ++ msg), by simp, ?_⟩
      rw [List.length_append, List.length_append, length_encode, length_putUint16]
      omega
  · have hzero : qos = 0 := by simpa using hqos
    rw [if_neg hqos] at h₁
    refine ⟨?_, .inl hzero⟩
    split at h₁
    · -- the `break` on `vlen <= 0`, which does not look at the sign
      obtain ⟨-, rfl⟩ := EStateM.Result.ok.inj h₁
      refine ⟨topic.encode, rfl, ?_⟩
      rw [length_encode]
      omega
    · obtain ⟨msg, s₂, hmsg, h₃⟩ := bind_eq_ok.mp h₁
      obtain ⟨rfl, hlen⟩ := readFull_eq_ok.mp hmsg
      obtain ⟨-, rfl⟩ := EStateM.Result.ok.inj h₃
      refine ⟨topic.encode ++ msg, by simp, ?_⟩
      rw [List.length_append, length_encode]
      omega

/-- A topic that reaches past the declared length is accepted at QoS 0. -/
theorem readPublish_overrun {length : ℕ} {topic : MqttString} {rest : List UInt8}
    (hpos : 1 ≤ topic.bytes.length) (hlen : length < 2 + topic.bytes.length) :
    readPublish 0 length (topic.encode ++ rest)
      = .ok { topicName := some topic.bytes } rest := by
  rw [readPublish, bind_apply, readString_reads topic rest]
  dsimp only
  rw [if_neg (by omega), if_neg (by decide), if_pos (by omega)]
  rfl

theorem takes_readPublish {qos : UInt8} {length : ℕ} {b : List UInt8} :
    Takes (readPublish qos length) length b ↔ PublishSized qos length b := by
  constructor
  · rintro h rfl topic rest rfl hpos
    by_contra hlt
    obtain ⟨bs, hbs, hlen⟩ := h _ rest (readPublish_overrun hpos (by omega))
    have hcancel := congrArg List.length (List.append_cancel_right hbs)
    rw [length_encode] at hcancel
    omega
  · intro h p s' hp
    obtain ⟨topic, rest, hb, hpos, ⟨bs, hbs, hlen⟩, hqos⟩ := readPublish_bytes hp
    have hle : 2 + topic.bytes.length ≤ length := hqos.elim (fun hqos => h hqos topic rest hb hpos) id
    exact ⟨bs, hbs, hlen.trans (max_eq_right hle)⟩

/-- The two topic lists: both readers are this block around their own loop. -/
theorem takes_topics {α : Type} {entry : List UInt8 → Option (Topics × ℕ) × List UInt8}
    {enc : Topics → List UInt8} {valid : Topics → Prop} (hspec : EntrySpec entry enc valid)
    (f : ℕ → List Topics → α) {length : ℕ} {b : List UInt8} :
    Takes (do let mid ← readInt
              let topics ← total (topicLoop entry length [])
              pure (f mid topics)) length b ↔ TopicsSized enc valid length b := by
  constructor
  · intro h hb
    rcases readInt_cases b with ⟨hshort, -⟩ | ⟨n, s, hn, rfl, hok⟩
    · omega
    obtain ⟨bs, hbs, hlen⟩ := h _ _ (bind_eq_ok.mpr ⟨n, s, hok, bind_eq_ok.mpr ⟨_, _, rfl, rfl⟩⟩)
    have hlength := congrArg List.length hbs
    obtain ⟨ts, rest, hts, rfl, hcases⟩ := topicLoop_cases hspec length [] s
    refine ⟨putUint16 n, ts, rest, rfl, hts, rfl, ?_⟩
    simp only [List.length_append, length_putUint16] at hlength
    -- the loop ended by its length or by a failed read
    rcases hcases with ⟨hle, hrest⟩ | ⟨hgt, hcut, hrest⟩
    · rw [hrest] at hlength
      omega
    · rw [hrest, List.length_nil] at hlength
      refine .inr ⟨by omega, hcut, ?_⟩
      simp only [List.length_append, length_putUint16]
      omega
  · intro h a s' ha
    obtain ⟨n, s, hn, h₁⟩ := bind_eq_ok.mp ha
    obtain ⟨topics, s₁, htopics, h₂⟩ := bind_eq_ok.mp h₁
    obtain ⟨-, rfl⟩ := EStateM.Result.ok.inj h₂
    obtain ⟨-, hs₁⟩ := EStateM.Result.ok.inj htopics
    obtain ⟨-, rfl⟩ := readInt_eq_ok.mp hn
    obtain ⟨mid, ts, rest, hmid, hts, hb, hsize⟩ := h (by simp)
    obtain ⟨-, rfl⟩ := List.append_inj hb (by rw [hmid, length_putUint16])
    rcases hsize with rfl | ⟨hgt, hcut, hlen⟩
    · -- the entries fill the frame
      push_cast at hs₁
      rw [topicLoop_exact hspec ts hts rest] at hs₁
      subst hs₁
      exact ⟨putUint16 n ++ ts.flatMap enc, by simp, by simp⟩
    · -- the stream is cut off inside an entry: everything is taken
      rw [topicLoop_append hspec ts [] hts _ (by omega),
        topicLoop_cut hspec _ _ (by omega) rest hcut] at hs₁
      subst hs₁
      exact ⟨_, (List.append_nil _).symm, hlen⟩

theorem takes_readInt {s : List UInt8} : Takes readInt 2 s := by
  intro n s' h
  obtain ⟨-, rfl⟩ := readInt_eq_ok.mp h
  exact ⟨putUint16 n, rfl, rfl⟩

theorem takes_readPuback {msgType : UInt8} {length : ℕ} {b : List UInt8} :
    Takes (readPuback msgType length) length b := by
  unfold readPuback
  split
  · next hlen =>
    subst hlen
    exact takes_bind_pure takes_readInt
  · exact takes_throw

theorem takes_readUNSuback {msgType : UInt8} {length : ℕ} {b : List UInt8} :
    Takes (readUNSuback msgType length) length b := by
  unfold readUNSuback
  split
  · next hlen =>
    subst hlen
    exact takes_bind_pure takes_readInt
  · exact takes_throw

theorem takes_readSuback {msgType : UInt8} {length : ℕ} {b : List UInt8} :
    Takes (readSuback msgType length) length b := by
  unfold readSuback
  split
  · next hlen =>
    subst hlen
    intro a s' h
    obtain ⟨mid, s₁, hmid, h₁⟩ := bind_eq_ok.mp h
    obtain ⟨qos, s₂, hqos, h₂⟩ := bind_eq_ok.mp h₁
    obtain ⟨-, rfl⟩ := readInt_eq_ok.mp hmid
    obtain rfl := readByte_eq_ok.mp hqos
    obtain ⟨-, rfl⟩ := EStateM.Result.ok.inj h₂
    exact ⟨putUint16 mid ++ [qos], by simp, rfl⟩
  · exact takes_throw

/-- The `switch` takes the declared length exactly when the bytes are sized for it. -/
theorem takes_readVariable {msgType qos : UInt8} {length : ℕ} {b : List UInt8} :
    Takes (readVariable msgType qos length) length b ↔ Sized msgType qos length b := by
  by_cases hconnect : msgType = CONNECT
  · subst hconnect
    exact (takes_map _).trans takes_readConnect
  by_cases hpublish : msgType = PUBLISH
  · subst hpublish
    exact (takes_map _).trans takes_readPublish
  by_cases hack : msgType = PUBACK ∨ msgType = PUBREL ∨ msgType = PUBREC ∨ msgType = PUBCOMP
  · have hsized : Sized msgType qos length b := by
      rcases hack with rfl | rfl | rfl | rfl <;> trivial
    rw [readVariable, if_neg hconnect, if_neg hpublish, if_pos hack, takes_map]
    exact iff_of_true takes_readPuback hsized
  by_cases hsubscribe : msgType = SUBSCRIBE
  · subst hsubscribe
    exact (takes_map _).trans (takes_topics readTopic_spec Subscribe.mk)
  by_cases hsuback : msgType = SUBACK
  · subst hsuback
    exact iff_of_true ((takes_map _).mpr takes_readSuback) trivial
  by_cases hunsubscribe : msgType = UNSUBSCRIBE
  · subst hunsubscribe
    exact (takes_map _).trans (takes_topics readUNTopic_spec UNSubscribe.mk)
  by_cases hunsuback : msgType = UNSUBACK
  · subst hunsuback
    exact iff_of_true ((takes_map _).mpr takes_readUNSuback) trivial
  by_cases hpingreq : msgType = PINGREQ
  · subst hpingreq
    exact takes_pure
  by_cases hdisconnect : msgType = DISCONNECT
  · subst hdisconnect
    exact takes_pure
  rw [readVariable, if_neg hconnect, if_neg hpublish, if_neg hack, if_neg hsubscribe,
    if_neg hsuback, if_neg hunsubscribe, if_neg hunsuback, if_neg hpingreq, if_neg hdisconnect,
    Sized, if_neg hconnect, if_neg hpublish, if_neg hsubscribe, if_neg hunsubscribe,
    if_neg (not_or.mpr ⟨hpingreq, hdisconnect⟩)]
  refine iff_of_true ?_ trivial
  split
  · exact takes_bind_pure takes_readFull
  · exact takes_pure.mpr (by omega)

/-! ## The whole frame -/

/-- On any stream, a successful `ReadPack` takes exactly one frame if and only if the frame at the
front declares the length its fields have. -/
theorem frameExact_iff (maxPackLength : ℤ) (s : List UInt8) :
    FrameExact maxPackLength s ↔ WellSized maxPackLength s := by
  constructor
  · rintro h fixed len b length rfl hlen hmax
    apply takes_readVariable.mp
    intro v s' hv
    obtain ⟨fixed', len', body, heq, hlen', hbody⟩ :=
      h _ s' (readPack_eq_ok.mpr ⟨fixed, len, b, length, v, rfl, hlen, hmax, hv, rfl⟩)
    obtain ⟨-, htail⟩ := List.cons.inj heq
    obtain ⟨-, rfl⟩ := hlen.unique hlen' htail
    exact ⟨body, rfl, hbody⟩
  · intro h pack s' hpack
    obtain ⟨fixed, len, b, length, v, rfl, hlen, hmax, hv, rfl⟩ := readPack_eq_ok.mp hpack
    obtain ⟨body, rfl, hbody⟩ := takes_readVariable.mpr (h fixed len b length rfl hlen hmax) v s' hv
    exact ⟨fixed, len, body, rfl, hlen, hbody⟩

/-- A QoS 0 PUBLISH of declared length 3 whose topic has two bytes takes the first byte of the
PINGREQ behind it. -/
theorem not_frameExact_publish : ¬ FrameExact 1024 [0x30, 3, 0, 2, 97, 0xC0, 0] := by
  intro h
  obtain ⟨fixed, len, body, heq, hlen, hbody⟩ := h
    { msgType := PUBLISH, length := 3, variable_ := .publish { topicName := some [97, 0xC0] } } [0]
    rfl
  have hthree : LengthBytes 2 [3] 3 := .stop (.inl (by decide))
  obtain ⟨-, htail⟩ := List.cons.inj heq
  obtain ⟨-, hrest⟩ := hthree.unique hlen htail
  have hlength := congrArg List.length hrest
  rw [List.length_append, hbody] at hlength
  exact absurd hlength (by decide)

end Vmqant.Mqtt
