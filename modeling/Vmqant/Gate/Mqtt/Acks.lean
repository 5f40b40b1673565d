import Vmqant.Gate.Mqtt.Decode
import Vmqant.Gate.Mqtt.WaitPack

/-!
# The acknowledgements of a connection

Each pack of a client has its acknowledgement in the protocol, or none. `waitPack` follows it, except for
a SUBSCRIBE, which it acknowledges once for each topic with QoS 2. So over a whole connection the packs that
are written are the acknowledgements of the packs that were received exactly when every SUBSCRIBE has one
such topic. What the receiver does with the packs does not matter, not even a panic.
-/

namespace Vmqant.Mqtt

open Lts Grammar

/-! ## The protocol -/

namespace Pack

/-- The message id. -/
def mid (p : Pack) : Option ℕ :=
  match p.variable_ with
  | .publish pub => some pub.mid
  | .puback ack => some ack.mid
  | .subscribe sub => some sub.mid
  | .suback ack => some ack.mid
  | .unsubscribe sub => some sub.mid
  | .unsuback ack => some ack.mid
  | .nil | .connect _ | .connack _ => none

/-- A pack as an acknowledgement: its type and its message id. -/
def ack (p : Pack) : UInt8 × Option ℕ := (p.msgType, p.mid)

/-- The type of the acknowledgement of a pack. -/
def ackType (p : Pack) : Option UInt8 :=
  if p.msgType = CONNECT then some CONNACK
  else if p.msgType = PUBLISH then
    if p.qosLevel = 1 then some PUBACK else if p.qosLevel = 2 then some PUBREC else none
  else if p.msgType = PUBREC then some PUBREL
  else if p.msgType = PUBREL then some PUBCOMP
  else if p.msgType = SUBSCRIBE then some SUBACK
  else if p.msgType = UNSUBSCRIBE then some UNSUBACK
  else if p.msgType = PINGREQ then some PINGRESP
  else none

/-- The acknowledgements that a pack is to have: one with its message id, or none. -/
def expectedAcks (p : Pack) : List (UInt8 × Option ℕ) := p.ackType.toList.map fun t => (t, p.mid)

/-- A SUBSCRIBE has exactly one topic with QoS 2. -/
def OneQos2 (p : Pack) : Prop :=
  p.msgType = SUBSCRIBE → ∀ sub, p.variable_ = .subscribe sub →
    sub.topics.countP (fun top => top.qos = 2) = 1

end Pack

namespace Client

/-! ## One pack -/

/-- The packs that `waitPack` writes for a pack. -/
def acks (p : Pack) : List Pack := writes ((waitPack ⟨p, none⟩).trace succeed)

theorem Handles.acks_eq {p : Pack} {packs : List Pack} (h : Handles p packs) : acks p = packs := by
  obtain ⟨before, htrace, hwrites, -⟩ := h.trace
  rw [acks, htrace, ← hwrites, writes, writes, List.filterMap_append]
  split
  · exact List.append_nil _
  · exact List.append_nil _

theorem flatMap_eq_replicate (topics : List Topics) (a : Pack) :
    (topics.flatMap fun top => if top.qos = 2 then [a] else [])
      = List.replicate (topics.countP fun top => top.qos = 2) a := by
  induction topics with
  | nil => rfl
  | cons top topics ih =>
    rw [List.flatMap_cons, List.countP_cons, ih]
    by_cases hqos : top.qos = 2
    · rw [if_pos hqos, if_pos (by simpa using hqos), List.replicate_succ]
      rfl
    · rw [if_neg hqos, if_neg (by simpa using hqos)]
      rfl

/-- A pack of another kind is acknowledged as the protocol says. -/
theorem acks_expected {p : Pack} {packs : List Pack} (hpacks : Handles p packs)
    (htype : p.msgType ≠ SUBSCRIBE) (hacks : packs.map Pack.ack = p.expectedAcks) :
    (acks p).map Pack.ack = p.expectedAcks ↔ p.OneQos2 := by
  rw [hpacks.acks_eq]
  exact iff_of_true hacks fun h => absurd h htype

theorem expectedAcks_publish {p : Pack} (htype : p.msgType = PUBLISH) {pub : Publish}
    (hvar : p.variable_ = .publish pub) :
    List.map Pack.ack (if p.qosLevel = 1 then [getPubAckPack pub.mid]
      else if p.qosLevel = 2 then [getPubRECPack pub.mid] else []) = p.expectedAcks := by
  have hmid : p.mid = some pub.mid := by
    rw [Pack.mid, hvar]
  have hack : p.ackType
      = if p.qosLevel = 1 then some PUBACK else if p.qosLevel = 2 then some PUBREC else none := by
    simp +decide only [Pack.ackType, htype, if_true, if_false]
  rw [Pack.expectedAcks, hack, hmid]
  by_cases hqos : p.qosLevel = 1
  · rw [if_pos hqos, if_pos hqos]
    rfl
  · rw [if_neg hqos, if_neg hqos]
    split
    · rfl
    · rfl

theorem acks_subscribe_iff {p : Pack} (htype : p.msgType = SUBSCRIBE) {sub : Subscribe}
    (hvar : p.variable_ = .subscribe sub) :
    (acks p).map Pack.ack = p.expectedAcks ↔ p.OneQos2 := by
  have hexpected : p.expectedAcks = List.replicate 1 (getSubAckPack sub.mid).ack := by
    simp +decide [Pack.expectedAcks, Pack.ackType, Pack.mid, htype, hvar, Pack.ack, getSubAckPack]
  rw [(handles_subscribe htype hvar).acks_eq, flatMap_eq_replicate, List.map_replicate, hexpected,
    List.replicate_left_inj]
  constructor
  · intro hone _ sub' hvar'
    obtain rfl := Variable.subscribe.inj (hvar.symm.trans hvar')
    exact hone
  · intro hone
    exact hone htype sub hvar

/-- One pack is acknowledged as the protocol says, if it is not a SUBSCRIBE with none or several topics
with QoS 2. -/
theorem acks_expected_iff {p : Pack} (hp : Decoded p) :
    (acks p).map Pack.ack = p.expectedAcks ↔ p.OneQos2 := by
  cases hp with
  | connect htype conn hvar =>
    refine acks_expected (handles_connect htype hvar) (htype ▸ by decide) ?_
    simp +decide [Pack.expectedAcks, Pack.ackType, Pack.mid, htype, hvar, Pack.ack, getConnAckPack]
  | publish htype pub hvar topic htopic =>
    exact acks_expected (handles_publish htype hvar) (htype ▸ by decide) (expectedAcks_publish htype hvar)
  | puback htype =>
    refine acks_expected (handles_puback htype) (htype ▸ by decide) ?_
    simp +decide [Pack.expectedAcks, Pack.ackType, htype]
  | pubrec htype ack hvar =>
    refine acks_expected (handles_pubrec htype hvar) (htype ▸ by decide) ?_
    simp +decide [Pack.expectedAcks, Pack.ackType, Pack.mid, htype, hvar, Pack.ack, getPubRELPack, ackPack]
  | pubrel htype ack hvar =>
    refine acks_expected (handles_pubrel htype hvar) (htype ▸ by decide) ?_
    simp +decide [Pack.expectedAcks, Pack.ackType, Pack.mid, htype, hvar, Pack.ack, getPubCOMPPack, ackPack]
  | pubcomp htype =>
    refine acks_expected (handles_pubcomp htype) (htype ▸ by decide) ?_
    simp +decide [Pack.expectedAcks, Pack.ackType, htype]
  | subscribe htype sub hvar => exact acks_subscribe_iff htype hvar
  | unsubscribe htype sub hvar =>
    refine acks_expected (handles_unsubscribe htype hvar) (htype ▸ by decide) ?_
    simp +decide [Pack.expectedAcks, Pack.ackType, Pack.mid, htype, hvar, Pack.ack, getUNSubAckPack]
  | pingreq htype hvar =>
    refine acks_expected (handles_pingreq htype) (htype ▸ by decide) ?_
    simp +decide [Pack.expectedAcks, Pack.ackType, Pack.mid, htype, hvar, Pack.ack, getPingResp]
  | other htype =>
    have hother := htype
    simp only [waitTypes, List.mem_cons, not_or] at hother
    refine acks_expected (handles_other htype) hother.2.2.2.2.2.2.1 ?_
    simp [Pack.expectedAcks, Pack.ackType, hother]

/-! ## A connection -/

variable {ρ ε : Type}

/-- If the next call of the loop is one of `WritePack`, it succeeds. -/
def WriteSucceeds (s : State ρ) (a : Act ε) : Prop :=
  ∀ err pack next, a = .listen err → s.pc = .waiting (.call (.writePack pack) next) → err = none

/-- The last pack that was received is in `waitPack`, which has made the calls `made`. -/
structure InWaitPack (s : State ρ) (rest : Script Call Call.Result (Option String)) (packs : List Pack)
    (p : Pack) (made : List Call) : Prop where
  received : s.received = packs ++ [p]
  written : s.written = packs.map acks ++ [writes made]
  calls : made ++ rest.trace succeed = (waitPack ⟨p, none⟩).trace succeed

/-- The writes up to now are those of the packs that were received. -/
structure Acked (s : State ρ) : Prop where
  decoded : ∀ p ∈ s.received, Decoded p
  waiting : ∀ rest, s.pc = .waiting rest → ∃ packs p made, InWaitPack s rest packs p made
  idle : (∀ rest, s.pc ≠ .waiting rest) → s.written = s.received.map acks

theorem addWritten_append (packs : List (List Pack)) (last : List Pack) (pack : Pack) :
    addWritten (packs ++ [last]) pack = packs ++ [last ++ [pack]] := by
  rw [addWritten, List.length_append, List.length_singleton, Nat.add_sub_cancel]
  induction packs with
  | nil => rfl
  | cons x packs ih => exact congrArg (x :: ·) ih

@[simp] theorem writes_append (calls calls' : List Call) :
    writes (calls ++ calls') = writes calls ++ writes calls' :=
  List.filterMap_append

/-- Nothing is written after a pack was handed on. -/
theorem writes_before_handOn {p q : Pack} (hp : Decoded p) {made rest : List Call}
    (h : made ++ .onRecover q :: rest = (waitPack ⟨p, none⟩).trace succeed) : writes made = acks p := by
  obtain ⟨packs, hpacks⟩ := handles_decoded hp
  obtain ⟨before, htrace, hwrites, hbefore⟩ := hpacks.trace
  rw [hpacks.acks_eq, ← hwrites]
  refine congrArg writes ?_
  rw [htrace] at h
  rcases List.append_eq_append_iff.mp h with ⟨xs, hxs, hrest⟩ | ⟨xs, hxs, hrest⟩
  · -- the call is not among those before
    cases xs with
    | nil => rw [hxs, List.append_nil]
    | cons x xs =>
      obtain ⟨rfl, -⟩ := List.cons.inj hrest
      exact absurd (hxs ▸ List.mem_append_right made List.mem_cons_self) (hbefore q)
  · -- nor is there room for two calls at the end
    cases xs with
    | nil => rw [hxs, List.append_nil]
    | cons x xs =>
      have hlen := congrArg List.length hrest
      rw [List.length_append, List.length_cons, List.length_cons] at hlen
      split at hlen
      · rw [List.length_singleton] at hlen
        omega
      · rw [List.length_nil] at hlen
        omega

namespace Acked

variable {s s' : State ρ}

theorem init (input : List UInt8) (r : ρ) : Acked (State.init input r) where
  decoded := by simp [State.init]
  waiting := by simp [State.init]
  idle := fun _ => rfl

/-- Nothing that matters has changed. -/
theorem frame (hs : Acked s) (hpc : s'.pc = s.pc) (hreceived : s'.received = s.received)
    (hwritten : s'.written = s.written) : Acked s' where
  decoded := hreceived ▸ hs.decoded
  waiting := fun rest hrest => by
    obtain ⟨packs, p, made, h⟩ := hs.waiting rest (hpc ▸ hrest)
    exact ⟨packs, p, made, hreceived.trans h.received, hwritten.trans h.written, h.calls⟩
  idle := fun hidle => by
    rw [hwritten, hreceived]
    exact hs.idle (hpc ▸ hidle)

/-- A pack is read. -/
theorem read (hs : Acked s) (hidle : ∀ rest, s.pc ≠ .waiting rest) {pack : Pack} (hp : Decoded pack)
    (hpc' : s'.pc = .waiting (waitPack ⟨pack, none⟩)) (hreceived : s'.received = s.received ++ [pack])
    (hwritten : s'.written = s.written ++ [[]]) : Acked s' where
  decoded := fun q hq => by
    rw [hreceived] at hq
    rcases List.mem_append.mp hq with hq | hq
    · exact hs.decoded q hq
    · exact List.mem_singleton.mp hq ▸ hp
  waiting := fun rest hrest => by
    obtain rfl := ListenPc.waiting.inj (hpc'.symm.trans hrest)
    refine ⟨s.received, pack, [], hreceived, ?_, rfl⟩
    rw [hwritten, hs.idle hidle]
    rfl
  idle := fun h => absurd hpc' (h _)

/-- `waitPack` goes on with its next call. -/
theorem next (hs : Acked s) {k : Call} {next : k.Result → Script Call Call.Result (Option String)}
    (hpc : s.pc = .waiting (.call k next)) (hpc' : s'.pc = .waiting (next (succeed k)))
    (hreceived : s'.received = s.received)
    (hwritten : ∀ packs made, s.written = packs ++ [writes made] →
      s'.written = packs ++ [writes made ++ writes [k]]) : Acked s' := by
  obtain ⟨packs, p, made, h⟩ := hs.waiting _ hpc
  refine
    { decoded := hreceived ▸ hs.decoded
      waiting := fun rest hrest => ⟨packs, p, made ++ [k], ?_⟩
      idle := fun hidle => absurd hpc' (hidle _) }
  obtain rfl := ListenPc.waiting.inj (hpc'.symm.trans hrest)
  exact
    { received := hreceived.trans h.received
      written := (hwritten _ _ h.written).trans (by rw [writes_append])
      calls := by
        rw [List.append_assoc]
        exact h.calls }

/-- `waitPack` is left, when it has made all its writes. -/
theorem leave (hs : Acked s) {rest : Script Call Call.Result (Option String)}
    (hpc : s.pc = .waiting rest)
    (hall : ∀ p made, Decoded p → made ++ rest.trace succeed = (waitPack ⟨p, none⟩).trace succeed →
      writes made = acks p)
    (hpc' : ∀ rest, s'.pc ≠ .waiting rest) (hreceived : s'.received = s.received)
    (hwritten : s'.written = s.written) : Acked s' where
  decoded := hreceived ▸ hs.decoded
  waiting := fun rest hrest => absurd hrest (hpc' rest)
  idle := fun _ => by
    obtain ⟨packs, p, made, h⟩ := hs.waiting rest hpc
    have hp : Decoded p := hs.decoded p (by simp [h.received])
    rw [hwritten, hreceived, h.written, h.received, hall p made hp h.calls, List.map_append]
    rfl

/-- The loop goes on outside of `waitPack`. -/
theorem move (hs : Acked s) (hpc : ∀ rest, s.pc ≠ .waiting rest) (hpc' : ∀ rest, s'.pc ≠ .waiting rest)
    (hreceived : s'.received = s.received) (hwritten : s'.written = s.written) : Acked s' where
  decoded := hreceived ▸ hs.decoded
  waiting := fun rest hrest => absurd hrest (hpc' rest)
  idle := fun _ => by
    rw [hwritten, hreceived]
    exact hs.idle hpc

end Acked

/-- A script that makes no more calls has made them all. -/
theorem writes_of_trace_nil {p : Pack} {made : List Call}
    {rest : Script Call Call.Result (Option String)} (hrest : rest.trace succeed = [])
    (h : made ++ rest.trace succeed = (waitPack ⟨p, none⟩).trace succeed) : writes made = acks p := by
  rw [hrest, List.append_nil] at h
  rw [h, acks]

theorem acked_listen {c : PackRecover ρ ε} {maxPackSize : ℤ} {s s' : State ρ} {err : Option String}
    (hs : Acked s) (hwrite : WriteSucceeds s (.listen err : Act ε))
    (h : ListenStep c maxPackSize s err s.pc s') : Acked s' := by
  generalize hpc : s.pc = pc at h
  cases h with
  | check hpc' =>
    rcases hpc' with rfl | rfl
    · exact hs.move (by simp [hpc]) (by simp) rfl rfl
    · exact hs.move (by simp [hpc]) (by simp) rfl rfl
  | read hread =>
    exact hs.read (by simp [hpc]) (readPack_decoded hread) rfl rfl rfl
  | readError rest => exact hs.move (by simp [hpc]) (by simp) rfl rfl
  | done => exact hs.leave hpc (fun p made _ => writes_of_trace_nil rfl) (by simp) rfl rfl
  | failed e => exact hs.leave hpc (fun p made _ => writes_of_trace_nil rfl) (by simp) rfl rfl
  | setAlive alive next =>
    refine hs.next hpc rfl rfl fun packs made hwritten => ?_
    rw [hwritten]
    exact congrArg (packs ++ [·]) (List.append_nil _).symm
  | write pack next =>
    obtain rfl := hwrite err pack next rfl hpc
    refine hs.next hpc rfl rfl fun packs made hwritten => ?_
    exact (congrArg (addWritten · pack) hwritten).trans (addWritten_append _ _ _)
  | handOn pack next hrecover =>
    refine hs.next hpc rfl rfl fun packs made hwritten => ?_
    rw [hwritten]
    exact congrArg (packs ++ [·]) (List.append_nil _).symm
  | handOnPanic pack next hrecover =>
    exact hs.leave hpc (fun p made hp => writes_before_handOn hp) (by simp) rfl rfl
  | panic v => exact hs.leave hpc (fun p made _ => writes_of_trace_nil rfl) (by simp) rfl rfl
  | stop => exact hs.move (by simp [hpc]) (by simp) rfl rfl

theorem acked_step {c : PackRecover ρ ε} {maxPackSize : ℤ} {s s' : State ρ} {a : Act ε} (hs : Acked s)
    (hwrite : WriteSucceeds s a) (h : step c maxPackSize s a = some s') : Acked s' := by
  rcases step_eq_some h with ⟨err, rfl, hlisten⟩ | ⟨-, hother⟩
  · exact acked_listen hs hwrite hlisten
  · cases hother with
    | readError hpc => exact hs.move (by simp [hpc]) (by simp) rfl rfl
    | close => exact hs.frame rfl rfl rfl
    | go r => exact hs.frame rfl rfl rfl

/-- **The acknowledgements of a connection.** Whatever a client sends and whatever the receiver does, when
the writes succeed, the packs that were written for the packs received are their acknowledgements, one each
and with their message ids, exactly when every SUBSCRIBE among them has one topic with QoS 2. -/
theorem acknowledged_iff (c : PackRecover ρ ε) (maxPackSize : ℤ) (input : List UInt8) (r : ρ)
    {as : List (Act ε)} {s : State ρ} (hrun : run (step c maxPackSize) (.init input r) as = some s)
    (hwrites : Along (step c maxPackSize) WriteSucceeds (.init input r) as)
    (hidle : ∀ rest, s.pc ≠ .waiting rest) :
    s.written.map (List.map Pack.ack) = s.received.map Pack.expectedAcks ↔
      ∀ p ∈ s.received, p.OneQos2 := by
  have hs : Acked s :=
    run_invariant (fun _ _ _ hs hwrite h => acked_step hs hwrite h) (.init input r) hwrites hrun
  rw [hs.idle hidle, List.map_map, List.map_inj_left]
  exact forall₂_congr fun p hp => acks_expected_iff (hs.decoded p hp)

/-! A client sends a SUBSCRIBE for one topic. -/

/-- A receiver that does nothing. -/
def idleRecover : PackRecover Unit Empty where
  onRecover := fun _ => pure ()
  go := fun _ _ => none

theorem short_a : ([97] : GoString).length < 65536 := by decide

def subscribeFrame (qos : UInt8) : Grammar.Frame :=
  .subscribe ⟨false, 1, false⟩ 8 [(⟨[97], short_a⟩, qos)]

/-- The loop has read the SUBSCRIBE. -/
def subscribed (qos : UInt8) : State Unit :=
  let pack := (subscribeFrame qos).toPack
  { connected := true, isStop := false, pc := .waiting (waitPack ⟨pack, none⟩), input := [],
    recover := (), received := [pack], written := [[]] }

theorem run_subscribed (qos : UInt8) (as : List (Act Empty)) :
    run (step idleRecover 65535) (.init (subscribeFrame qos).encode ())
      (.listen none :: .listen none :: as) = run (step idleRecover 65535) (subscribed qos) as := by
  have hlen : (subscribeFrame qos).remainingLength = 6 := rfl
  have hread : readPack 65535 (subscribeFrame qos).encode = .ok (subscribeFrame qos).toPack [] := by
    have h := readPack_encode 65535 (subscribeFrame qos) (by omega) (by omega) []
    rwa [List.append_nil] at h
  have hstep : step idleRecover 65535
      { State.init (subscribeFrame qos).encode () with pc := .reading } (.listen none)
      = some (subscribed qos) := by
    unfold step listenStep
    dsimp only [State.init]
    rw [hread]
    rfl
  change (step idleRecover 65535 { State.init (subscribeFrame qos).encode () with pc := .reading }
    (.listen none)).bind _ = _
  rw [hstep]
  rfl

/-- The loop has handled the SUBSCRIBE. -/
def handled (qos : UInt8) (acks : List Pack) : State Unit :=
  { subscribed qos with pc := .head, written := [acks] }

theorem writeSucceeds_replicate (n : ℕ) (s : State Unit) :
    Along (step idleRecover 65535) WriteSucceeds s (List.replicate n (.listen none)) := by
  refine along_of_mem (fun a ha s err pack next hlisten _ => ?_) s
  obtain rfl := List.eq_of_mem_replicate ha
  exact (Act.listen.inj hlisten).symm

/-- Its topic has QoS 2, and it is acknowledged. -/
theorem acknowledged_iff_qos2 :
    run (step idleRecover 65535) (.init (subscribeFrame 2).encode ()) (List.replicate 5 (.listen none))
        = some (handled 2 [getSubAckPack 8]) ∧
      (handled 2 [getSubAckPack 8]).written.map (List.map Pack.ack)
        = (handled 2 [getSubAckPack 8]).received.map Pack.expectedAcks := by
  have hrun : run (step idleRecover 65535) (.init (subscribeFrame 2).encode ())
      (List.replicate 5 (.listen none)) = some (handled 2 [getSubAckPack 8]) := run_subscribed 2 _
  refine ⟨hrun, (acknowledged_iff idleRecover 65535 (subscribeFrame 2).encode () hrun
    (writeSucceeds_replicate 5 _) (fun _ h => by cases h)).mpr fun p hp _ sub hvar => ?_⟩
  obtain rfl := List.mem_singleton.mp hp
  obtain rfl := Variable.subscribe.inj hvar
  rfl

/-- Its topic has QoS 1, and it is not acknowledged. -/
theorem unacknowledged_qos1 :
    run (step idleRecover 65535) (.init (subscribeFrame 1).encode ()) (List.replicate 4 (.listen none))
        = some (handled 1 []) ∧
      Along (step idleRecover 65535) WriteSucceeds (.init (subscribeFrame 1).encode ())
        (List.replicate 4 (.listen none)) ∧
      (∀ rest, (handled 1 []).pc ≠ .waiting rest) ∧
      (handled 1 []).received.map Pack.expectedAcks = [[(SUBACK, some 8)]] ∧
      (handled 1 []).written.map (List.map Pack.ack) ≠ [[(SUBACK, some 8)]] := by
  refine ⟨run_subscribed 1 _, writeSucceeds_replicate 4 _, fun _ h => ?_, rfl, by decide⟩
  cases h

end Client

end Vmqant.Mqtt
