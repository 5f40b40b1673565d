import Vmqant.Gate.Mqtt.Client
import Vmqant.Gate.Mqtt.FrameDiscipline

/-!
# What `waitPack` does with a pack

`ReadPack` chooses the type of the variable by the type of the pack, and gives a PUBLISH a topic, so none
of the assertions of `waitPack` fails on a pack that it has read. `waitPack` makes its writes first and
hands the pack on last, if at all.
-/

namespace Vmqant.Mqtt

open ByteStream

/-! ## What `ReadPack` gives -/

/-- The types that `waitPack` knows. -/
def waitTypes : List UInt8 :=
  [CONNECT, PUBLISH, PUBACK, PUBREC, PUBREL, PUBCOMP, SUBSCRIBE, UNSUBSCRIBE, PINGREQ]

/-- The type of a pack and that of its variable fit together, for the types that `waitPack` knows. -/
inductive Decoded (p : Pack) : Prop where
  | connect (htype : p.msgType = CONNECT) (conn : Connect) (hvar : p.variable_ = .connect conn)
  | publish (htype : p.msgType = PUBLISH) (pub : Publish) (hvar : p.variable_ = .publish pub)
      (topic : GoString) (htopic : pub.topicName = some topic)
  | puback (htype : p.msgType = PUBACK)
  | pubrec (htype : p.msgType = PUBREC) (ack : Puback) (hvar : p.variable_ = .puback ack)
  | pubrel (htype : p.msgType = PUBREL) (ack : Puback) (hvar : p.variable_ = .puback ack)
  | pubcomp (htype : p.msgType = PUBCOMP)
  | subscribe (htype : p.msgType = SUBSCRIBE) (sub : Subscribe) (hvar : p.variable_ = .subscribe sub)
  | unsubscribe (htype : p.msgType = UNSUBSCRIBE) (sub : UNSubscribe)
      (hvar : p.variable_ = .unsubscribe sub)
  | pingreq (htype : p.msgType = PINGREQ) (hvar : p.variable_ = .nil)
  | other (htype : p.msgType ∉ waitTypes)

/-- A PUBLISH that is read has a topic. -/
theorem readPublish_topicName {qos : UInt8} {length : ℕ} {s s' : List UInt8} {pub : Publish}
    (h : readPublish qos length s = .ok pub s') : ∃ topic, pub.topicName = some topic := by
  obtain ⟨⟨topic, n⟩, s₁, -, h₁⟩ := bind_eq_ok.mp h
  refine ⟨topic, ?_⟩
  dsimp only at h₁
  split at h₁
  · cases h₁
  split at h₁
  · split at h₁
    · cases h₁
    obtain ⟨mid, s₂, -, h₂⟩ := bind_eq_ok.mp h₁
    split at h₂
    · obtain ⟨rfl, -⟩ := EStateM.Result.ok.inj h₂
      rfl
    obtain ⟨msg, s₃, -, h₃⟩ := bind_eq_ok.mp h₂
    obtain ⟨rfl, -⟩ := EStateM.Result.ok.inj h₃
    rfl
  split at h₁
  · obtain ⟨rfl, -⟩ := EStateM.Result.ok.inj h₁
    rfl
  obtain ⟨msg, s₃, -, h₃⟩ := bind_eq_ok.mp h₁
  obtain ⟨rfl, -⟩ := EStateM.Result.ok.inj h₃
  rfl

theorem readPack_decoded {maxPackLength : ℤ} {s s' : List UInt8} {p : Pack}
    (h : readPack maxPackLength s = .ok p s') : Decoded p := by
  obtain ⟨fixed, len, b, length, v, -, -, -, hv, rfl⟩ := readPack_eq_ok.mp h
  generalize fixed >>> 4 = t at hv
  unfold readVariable at hv
  split at hv
  · next htype =>
    obtain ⟨conn, -, rfl⟩ := map_eq_ok.mp hv
    exact .connect htype conn rfl
  split at hv
  · next htype =>
    obtain ⟨pub, hpub, rfl⟩ := map_eq_ok.mp hv
    obtain ⟨topic, htopic⟩ := readPublish_topicName hpub
    exact .publish htype pub rfl topic htopic
  split at hv
  · next htype =>
    obtain ⟨ack, -, rfl⟩ := map_eq_ok.mp hv
    rcases htype with htype | htype | htype | htype
    · exact .puback htype
    · exact .pubrel htype ack rfl
    · exact .pubrec htype ack rfl
    · exact .pubcomp htype
  split at hv
  · next htype =>
    obtain ⟨sub, -, rfl⟩ := map_eq_ok.mp hv
    exact .subscribe htype sub rfl
  split at hv
  · next htype =>
    have hother : SUBACK ∉ waitTypes := by decide
    exact .other (htype ▸ hother)
  split at hv
  · next htype =>
    obtain ⟨sub, -, rfl⟩ := map_eq_ok.mp hv
    exact .unsubscribe htype sub rfl
  split at hv
  · next htype =>
    have hother : UNSUBACK ∉ waitTypes := by decide
    exact .other (htype ▸ hother)
  split at hv
  · next htype =>
    obtain ⟨rfl, -⟩ := EStateM.Result.ok.inj hv
    exact .pingreq htype rfl
  · next hconnect hpublish hack hsubscribe _ hunsubscribe _ hpingreq =>
    refine .other ?_
    simp only [not_or] at hack
    simp only [waitTypes, List.mem_cons, List.not_mem_nil, or_false, not_or]
    exact ⟨hconnect, hpublish, hack.1, hack.2.2.1, hack.2.1, hack.2.2.2, hsubscribe, hunsubscribe,
      hpingreq⟩

/-! ## What `waitPack` calls -/

namespace Client

/-- `WritePack` always succeeds. -/
def succeed : ∀ k : Call, k.Result
  | .setAlive _ => ()
  | .writePack _ => none
  | .onRecover _ => ()

/-- The packs that are written. -/
def writes (calls : List Call) : List Pack :=
  calls.filterMap fun
    | .writePack pack => some pack
    | .setAlive _ | .onRecover _ => none

/-- The packs that are handed on. -/
def handedOn : List UInt8 := [PUBLISH, SUBSCRIBE, UNSUBSCRIBE, PINGREQ]

/-- If a pack is handed on, it is `p`. -/
def Fits (p : Pack) : Call → Prop
  | .onRecover q => q = p ∧ p.msgType ∈ handedOn
  | .setAlive _ | .writePack _ => True

/-- `waitPack` writes `packs`, and hands `p` on last if it is of a kind that is handed on. -/
structure Handles (p : Pack) (packs : List Pack) : Prop where
  all : (waitPack ⟨p, none⟩).All (Fits p)
  trace : ∃ before, (waitPack ⟨p, none⟩).trace succeed
    = before ++ (if p.msgType ∈ handedOn then [.onRecover p] else []) ∧
      writes before = packs ∧ ∀ q, .onRecover q ∉ before

section Shapes

variable {p : Pack}

theorem handles_nothing (htype : p.msgType ∉ handedOn) (hwait : waitPack ⟨p, none⟩ = .ret none) :
    Handles p [] := by
  refine ⟨?_, [], ?_, rfl, by simp⟩
  · rw [hwait]
    trivial
  · rw [hwait, if_neg htype]
    rfl

theorem handles_write (htype : p.msgType ∉ handedOn) {pack : Pack}
    (hwait : waitPack ⟨p, none⟩ = writePack pack) : Handles p [pack] := by
  refine ⟨?_, [.writePack pack], ?_, rfl, by simp⟩
  · rw [hwait]
    exact ⟨trivial, fun _ => trivial⟩
  · rw [hwait, if_neg htype]
    rfl

/-- The pack is handed on after some writes, which leave no error when they succeed. -/
theorem handles_handOn (htype : p.msgType ∈ handedOn)
    {x : Script Call Call.Result (Option String)} {packs : List Pack}
    (hwait : waitPack ⟨p, none⟩ = (do let err ← x; onRecover p; pure err)) (hall : x.All (Fits p))
    (htrace : ∀ g : Option String → Script Call Call.Result (Option String),
      (x >>= g).trace succeed = packs.map Call.writePack ++ (g none).trace succeed) :
    Handles p packs := by
  refine ⟨?_, packs.map Call.writePack, ?_, ?_, by simp⟩
  · rw [hwait]
    exact hall.bind fun _ => ⟨⟨rfl, htype⟩, fun _ => trivial⟩
  · rw [hwait, htrace, if_pos htype]
    rfl
  · rw [writes, List.filterMap_map]
    exact List.filterMap_some

/-- One write, and the pack is handed on. -/
theorem handles_writeHandOn (htype : p.msgType ∈ handedOn) {pack : Pack}
    (hwait : waitPack ⟨p, none⟩ = (do let err ← writePack pack; onRecover p; pure err)) :
    Handles p [pack] :=
  handles_handOn htype hwait ⟨trivial, fun _ => trivial⟩ fun _ => rfl

end Shapes

/-! ## The kinds of packs -/

section Kinds

variable {p : Pack}

theorem handles_connect (htype : p.msgType = CONNECT) {conn : Connect}
    (hvar : p.variable_ = .connect conn) : Handles p [getConnAckPack 0] := by
  have hwait : waitPack ⟨p, none⟩ =
      .call (.setAlive conn.keepAliveTimer) fun _ => .call (.writePack (getConnAckPack 0)) .ret := by
    simp +decide only [waitPack, htype, hvar, if_true]
    rfl
  refine ⟨?_, [.setAlive conn.keepAliveTimer, .writePack (getConnAckPack 0)], ?_, rfl, by simp⟩
  · rw [hwait]
    exact ⟨trivial, fun _ => ⟨trivial, fun _ => trivial⟩⟩
  · rw [hwait, htype]
    rfl

/-- The acknowledgement of a PUBLISH depends on its QoS. -/
theorem handles_publish (htype : p.msgType = PUBLISH) {pub : Publish}
    (hvar : p.variable_ = .publish pub) :
    Handles p (if p.qosLevel = 1 then [getPubAckPack pub.mid]
      else if p.qosLevel = 2 then [getPubRECPack pub.mid] else []) := by
  have hkind : p.msgType ∈ handedOn := htype ▸ by decide
  split
  · next hqos =>
    refine handles_writeHandOn hkind ?_
    simp +decide only [waitPack, htype, hvar, hqos, if_true, if_false]
    rfl
  · next hqos =>
    split
    · next hqos' =>
      refine handles_writeHandOn hkind ?_
      simp +decide only [waitPack, htype, hvar, hqos', if_true, if_false]
      rfl
    · next hqos' =>
      refine handles_handOn hkind (x := .ret none) ?_ trivial fun _ => rfl
      simp +decide only [waitPack, htype, hvar, hqos, hqos', if_true, if_false]
      rfl

theorem handles_pubrec (htype : p.msgType = PUBREC) {ack : Puback} (hvar : p.variable_ = .puback ack) :
    Handles p [getPubRELPack ack.mid] := by
  refine handles_write (htype ▸ by decide) ?_
  simp +decide only [waitPack, htype, hvar, if_true, if_false]
  rfl

theorem handles_pubrel (htype : p.msgType = PUBREL) {ack : Puback} (hvar : p.variable_ = .puback ack) :
    Handles p [getPubCOMPPack ack.mid] := by
  refine handles_write (htype ▸ by decide) ?_
  simp +decide only [waitPack, htype, hvar, if_true, if_false]
  rfl

/-- A SUBSCRIBE is acknowledged once for each topic with QoS 2. -/
theorem handles_subscribe (htype : p.msgType = SUBSCRIBE) {sub : Subscribe}
    (hvar : p.variable_ = .subscribe sub) :
    Handles p (sub.topics.flatMap fun top => if top.qos = 2 then [getSubAckPack sub.mid] else []) := by
  have hkind : p.msgType ∈ handedOn := htype ▸ by decide
  refine handles_handOn hkind (x := sub.topics.foldlM (fun err top =>
    if top.qos = 2 then writePack (getSubAckPack sub.mid) else pure err) none) ?_ ?_ ?_
  · simp +decide only [waitPack, htype, hvar, if_true, if_false]
    rfl
  · refine Script.All.foldlM (fun err top => ?_) _ _
    split
    · exact ⟨trivial, fun _ => trivial⟩
    · trivial
  · intro g
    rw [List.map_flatMap]
    refine Script.trace_foldlM (fun top h => ?_) _ _
    split
    · rfl
    · rfl

theorem handles_unsubscribe (htype : p.msgType = UNSUBSCRIBE) {sub : UNSubscribe}
    (hvar : p.variable_ = .unsubscribe sub) : Handles p [getUNSubAckPack sub.mid] := by
  refine handles_writeHandOn (htype ▸ by decide) ?_
  simp +decide only [waitPack, htype, hvar, if_true, if_false]
  rfl

theorem handles_pingreq (htype : p.msgType = PINGREQ) : Handles p [getPingResp 0 p.dupFlag] := by
  refine handles_writeHandOn (htype ▸ by decide) ?_
  simp +decide only [waitPack, htype, if_true, if_false]

theorem handles_puback (htype : p.msgType = PUBACK) : Handles p [] := by
  refine handles_nothing (htype ▸ by decide) ?_
  simp +decide only [waitPack, htype, if_true, if_false]
  rfl

theorem handles_pubcomp (htype : p.msgType = PUBCOMP) : Handles p [] := by
  refine handles_nothing (htype ▸ by decide) ?_
  simp +decide only [waitPack, htype, if_true, if_false]
  rfl

theorem handles_other (htype : p.msgType ∉ waitTypes) : Handles p [] := by
  refine handles_nothing (fun h => htype ?_) ?_
  · simp only [handedOn, waitTypes, List.mem_cons] at h ⊢
    tauto
  · simp only [waitTypes, List.mem_cons, not_or] at htype
    simp only [waitPack, htype, if_false]
    rfl

theorem handles_decoded (hp : Decoded p) : ∃ packs, Handles p packs := by
  cases hp with
  | connect htype conn hvar => exact ⟨_, handles_connect htype hvar⟩
  | publish htype pub hvar topic htopic => exact ⟨_, handles_publish htype hvar⟩
  | puback htype => exact ⟨_, handles_puback htype⟩
  | pubrec htype ack hvar => exact ⟨_, handles_pubrec htype hvar⟩
  | pubrel htype ack hvar => exact ⟨_, handles_pubrel htype hvar⟩
  | pubcomp htype => exact ⟨_, handles_pubcomp htype⟩
  | subscribe htype sub hvar => exact ⟨_, handles_subscribe htype hvar⟩
  | unsubscribe htype sub hvar => exact ⟨_, handles_unsubscribe htype hvar⟩
  | pingreq htype hvar => exact ⟨_, handles_pingreq htype⟩
  | other htype => exact ⟨_, handles_other htype⟩

end Kinds

end Client

end Vmqant.Mqtt
