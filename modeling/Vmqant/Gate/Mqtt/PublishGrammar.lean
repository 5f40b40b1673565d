import Vmqant.Gate.Mqtt.Frame
import Vmqant.Gate.Mqtt.WriteLock

/-!
# What a written message means

Reference: `gate/base/mqtt/mqtt.go`, lines 671-694 and 807-842; `gate/base/mqtt/mqtt_client_server.go`, lines
184-190.

A message of `WriteMsg` is a PUBLISH at QoS 0, with a topic and a body of any length. `PublishFrame` is the
grammar of such a frame, and `honest_iff` says for which messages the encoder either writes a frame that
means the message, and nothing else, or refuses it: the length of the topic goes through 16 bits without a
check.
-/

namespace Vmqant.Mqtt

open ByteStream

/-- The bytes of a PUBLISH at QoS 0: fixed header, remaining length, the topic after its two-byte length,
and the payload. -/
inductive PublishFrame : List UInt8 → GoString → List UInt8 → Prop where
  | mk {fixed : UInt8} {topic : GoString} {payload : List UInt8} (htype : fixed >>> 4 = PUBLISH)
      (hqos : (fixed &&& 15 &&& 7) >>> 1 = 0) (htopic : topic.length < 65536)
      (hlength : 2 + topic.length + payload.length < 2 ^ 28) :
      PublishFrame (fixed :: (VarInt.encode (2 + topic.length + payload.length) ++
        (putUint16 topic.length ++ (topic ++ payload)))) topic payload

/-- A frame has one topic and one payload. -/
theorem PublishFrame.unique {bytes payload payload' : List UInt8} {topic topic' : GoString}
    (h : PublishFrame bytes topic payload) (h' : PublishFrame bytes topic' payload') :
    topic = topic' ∧ payload = payload' := by
  obtain ⟨htype, hqos, htopic, hlength⟩ := h
  generalize hbytes : (_ :: _ : List UInt8) = bytes at h'
  obtain ⟨htype', hqos', htopic', hlength'⟩ := h'
  obtain ⟨-, htail⟩ := List.cons.inj hbytes
  obtain ⟨-, hbody⟩ := VarInt.encode_append_inj htail
  obtain ⟨hhead, hrest⟩ := List.append_inj hbody rfl
  have hlen : topic.length = topic'.length := by
    rw [← uint16_putUint16 htopic, hhead, uint16_putUint16 htopic']
  exact List.append_inj hrest hlen

/-- Some bytes mean this message. -/
def Representable (topic : GoString) (body : List UInt8) : Prop := ∃ bytes, PublishFrame bytes topic body

/-- What `WriteMsg` promises for a message, whatever the writer does: the encoder fails, or it has written
bytes that mean this message and no other. -/
def Honest (mid : ℕ) (topic : GoString) (body : List UInt8) : Prop :=
  ∀ w, (∃ e w', delayWritePack (getPubPack 0 0 mid topic body) w = .error e w') ∨
    ∃ bytes, delayWritePack (getPubPack 0 0 mid topic body) w = .ok () { w with out := w.out ++ bytes } ∧
      ∀ t b, PublishFrame bytes t b ↔ t = topic ∧ b = body

/-! ## The bytes of a message -/

theorem writeFull_eq_ok {b : List UInt8} {w w' : Sink} (h : writeFull b w = .ok () w') :
    w' = { w with out := w.out ++ b } := by
  unfold writeFull at h
  split at h
  · next hempty =>
    obtain ⟨-, rfl⟩ := EStateM.Result.ok.inj h
    rw [List.isEmpty_iff.mp hempty, List.append_nil]
  · by_cases haccepts : w.Accepts b.length
    · rw [write_of_accepts haccepts] at h
      exact (EStateM.Result.ok.inj h).2.symm
    · obtain ⟨w₁, hw₁⟩ := write_of_not_accepts (e := WriteErr.io) haccepts
      rw [hw₁] at h
      cases h

/-- The pieces are appended, or one of them is refused. -/
theorem writePieces_cases (ps : List (List UInt8)) (w : Sink) :
    (∃ e w', writePieces ps w = .error e w') ∨
      writePieces ps w = .ok () { w with out := w.out ++ ps.flatten } := by
  induction ps generalizing w with
  | nil =>
    refine .inr ?_
    rw [List.flatten_nil, List.append_nil]
    rfl
  | cons b ps ih =>
    have hbind : writePieces (b :: ps) w = EStateM.bind (writeFull b) (fun _ => writePieces ps) w := rfl
    rw [hbind]
    unfold EStateM.bind
    cases hb : writeFull b w with
    | error e w' => exact .inl ⟨e, w', rfl⟩
    | ok u w₁ =>
      obtain rfl := writeFull_eq_ok hb
      dsimp only
      rw [List.flatten_cons, ← List.append_assoc]
      exact ih { w with out := w.out ++ b }

/-- The bytes of a message: the length of the topic is taken modulo `2 ^ 16`. -/
def messageBytes (topic : GoString) (body : List UInt8) : List UInt8 :=
  48 :: (VarInt.encode (2 + topic.length + body.length) ++ (putUint16 topic.length ++ (topic ++ body)))

theorem pieces_getPubPack {mid : ℕ} {topic : GoString} {body : List UInt8}
    (h : 2 + topic.length + body.length < 2 ^ 28) :
    (getPubPack 0 0 mid topic body).pieces.flatten = messageBytes topic body := by
  have hlength : (getPubPack 0 0 mid topic body).bodyLength = 2 + topic.length + body.length :=
    bodyLength_getPubPack 0 0 mid topic body
  have hbody : (getPubPack 0 0 mid topic body).bodyPieces = [putUint16 topic.length, topic, [], body] := rfl
  have hfixed : (getPubPack 0 0 mid topic body).fixedByte = 48 := by
    show PUBLISH <<< 4 ||| (0 : UInt8) <<< 3 ||| (0 : UInt8) <<< 1 = 48
    decide
  rw [pieces_eq (by rwa [hlength]), hlength, hbody, hfixed, messageBytes]
  simp only [List.flatten_cons, List.flatten_nil, List.append_nil, List.nil_append, List.singleton_append]

/-- A message below the limit of the remaining length is written as it is, whatever its topic. -/
theorem delayWritePack_message {mid : ℕ} {topic : GoString} {body : List UInt8}
    (h : 2 + topic.length + body.length < 2 ^ 28) (w : Sink) :
    (∃ e w', delayWritePack (getPubPack 0 0 mid topic body) w = .error e w') ∨
      delayWritePack (getPubPack 0 0 mid topic body) w
        = .ok () { w with out := w.out ++ messageBytes topic body } := by
  have hlength : (getPubPack 0 0 mid topic body).bodyLength = 2 + topic.length + body.length :=
    bodyLength_getPubPack 0 0 mid topic body
  rw [delayWritePack_eq (.pub 0 0 mid topic body) (by rwa [hlength]), ← pieces_getPubPack h]
  exact writePieces_cases _ w

theorem delayWritePack_unlimited {mid : ℕ} {topic : GoString} {body : List UInt8}
    (h : 2 + topic.length + body.length < 2 ^ 28) :
    delayWritePack (getPubPack 0 0 mid topic body) ⟨[], none⟩ = .ok () ⟨messageBytes topic body, none⟩ := by
  have hlength : (getPubPack 0 0 mid topic body).bodyLength = 2 + topic.length + body.length :=
    bodyLength_getPubPack 0 0 mid topic body
  have hwrites : Writes (writePieces (getPubPack 0 0 mid topic body).pieces)
      ((getPubPack 0 0 mid topic body).pieces.flatMap id) := Writes.forM fun b _ => writeFull_writes b
  rw [delayWritePack_eq (.pub 0 0 mid topic body) (by rwa [hlength]), hwrites [], List.flatMap_id,
    pieces_getPubPack h, List.nil_append]

theorem publishFrame_messageBytes {topic : GoString} {body : List UInt8} (htopic : topic.length < 65536)
    (hlength : 2 + topic.length + body.length < 2 ^ 28) :
    PublishFrame (messageBytes topic body) topic body :=
  .mk (by decide) (by decide) htopic hlength

theorem representable_iff {topic : GoString} {body : List UInt8} :
    Representable topic body ↔ topic.length < 65536 ∧ 2 + topic.length + body.length < 2 ^ 28 := by
  constructor
  · rintro ⟨bytes, h⟩
    cases h with
    | mk htype hqos htopic hlength => exact ⟨htopic, hlength⟩
  · rintro ⟨htopic, hlength⟩
    exact ⟨_, publishFrame_messageBytes htopic hlength⟩

/-- A longer topic is cut where the 16 bits say, and the rest of it is read as payload. -/
theorem publishFrame_longTopic {topic : GoString} {body : List UInt8} (htopic : 65536 ≤ topic.length)
    (hlength : 2 + topic.length + body.length < 2 ^ 28) :
    PublishFrame (messageBytes topic body) (topic.take (topic.length % 65536))
      (topic.drop (topic.length % 65536) ++ body) := by
  have hmod : topic.length % 65536 < 65536 := Nat.mod_lt _ (by decide)
  have htake : (topic.take (topic.length % 65536)).length = topic.length % 65536 := by
    rw [List.length_take]
    omega
  have hsum : 2 + (topic.take (topic.length % 65536)).length
      + (topic.drop (topic.length % 65536) ++ body).length = 2 + topic.length + body.length := by
    rw [htake, List.length_append, List.length_drop]
    omega
  have hput : putUint16 (topic.take (topic.length % 65536)).length = putUint16 topic.length := by
    rw [htake, putUint16, putUint16, Nat.mod_mod]
  have hframe := @PublishFrame.mk 48 _ _ (by decide) (by decide) (htake.trans_lt hmod)
    (hsum.trans_lt hlength)
  rw [hsum, hput, ← List.append_assoc (List.take _ _), List.take_append_drop] at hframe
  exact hframe

/-! ## What the encoder promises -/

/-- On a writer that takes everything, a long topic is neither refused nor written as it is. -/
theorem not_honest {mid : ℕ} {topic : GoString} {body : List UInt8} (htopic : 65536 ≤ topic.length)
    (hlength : 2 + topic.length + body.length < 2 ^ 28) : ¬ Honest mid topic body := by
  intro h
  rcases h ⟨[], none⟩ with ⟨e, w', herr⟩ | ⟨bytes, -, hmeans⟩
  · rw [delayWritePack_unlimited hlength] at herr
    cases herr
  · have hframe := (hmeans topic body).mpr ⟨rfl, rfl⟩
    have hfits := (representable_iff.mp ⟨bytes, hframe⟩).1
    omega

/-- **The meaning of a written message.** For every topic and every body, the encoder writes a frame that
means exactly this message or refuses it, whatever the writer does, if and only if the topic fits its
16-bit length or the whole message is past the limit of the remaining length. -/
theorem honest_iff (mid : ℕ) (topic : GoString) (body : List UInt8) :
    Honest mid topic body ↔ topic.length < 65536 ∨ 2 ^ 28 ≤ 2 + topic.length + body.length := by
  constructor
  · intro h
    by_contra hlong
    obtain ⟨htopic, hlength⟩ := not_or.mp hlong
    exact not_honest (Nat.not_lt.mp htopic) (Nat.not_le.mp hlength) h
  · intro h w
    by_cases hlength : 2 + topic.length + body.length < 2 ^ 28
    · have htopic := h.resolve_right (Nat.not_le.mpr hlength)
      refine (delayWritePack_message hlength w).imp_right fun hok => ⟨_, hok, fun t b => ?_⟩
      constructor
      · intro h
        exact h.unique (publishFrame_messageBytes htopic hlength)
      · rintro ⟨rfl, rfl⟩
        exact publishFrame_messageBytes htopic hlength
    · refine .inl (delayWritePack_error (fun hencodes => hlength ?_) w)
      simpa using encodes_getPubPack.mp hencodes

/-- A topic of 65536 bytes is written, and the frame means the empty topic with these bytes as payload. -/
theorem message_longTopic :
    ¬ Honest 1 (List.replicate 65536 97) [1] ∧
      PublishFrame (messageBytes (List.replicate 65536 97) [1]) [] (List.replicate 65536 97 ++ [1]) := by
  have hlength : (List.replicate 65536 (97 : UInt8)).length = 65536 := List.length_replicate
  have hmax : 2 + (List.replicate 65536 (97 : UInt8)).length + [(1 : UInt8)].length < 2 ^ 28 := by
    rw [hlength]
    decide
  have hframe := publishFrame_longTopic hlength.ge hmax
  rw [hlength, Nat.mod_self, List.take_zero, List.drop_zero] at hframe
  exact ⟨not_honest hlength.ge hmax, hframe⟩

end Vmqant.Mqtt
