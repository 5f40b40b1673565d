import Vmqant.Common.Lts
import Vmqant.Common.Panic
import Vmqant.Gate.Mqtt.RoundTrip

/-!
# The write lock after a panic of the encoder

Reference: `gate/base/mqtt/pack_queue.go`, lines 100-155; `gate/base/mqtt/mqtt_client_server.go`, lines
184-190.

`WritePack` holds `writelock` while it encodes. A panic of the encoder skips the `Unlock` after it, and the
deferred function recovers without one. `writePack_unlocks_iff` says for which packs and writers this
happens, and `turns_iff` what it does to the calls that come later.

A call reads every shared field once before it gives the lock back, so what the other goroutines do in the
meantime is in the values it finds.
-/

namespace Vmqant.Mqtt

open ByteStream Lts

/-! ## When the encoder panics -/

/-- The length and the topic name of a PUBLISH that the encoder gets through. -/
def Publish.Encodes (qos : UInt8) (pub : Publish) : Prop :=
  match pub.topicName with
  | none => False
  | some topic => (if qos > 0 then 4 else 2) + topic.length + pub.msg.length < 128 ^ 4

/-- The declared length of a SUBSCRIBE. -/
def Subscribe.tnum (sub : Subscribe) : ℕ :=
  sub.topics.foldl (fun tnum top => tnum + 2 + top.name.length + 1) 0

/-- The declared length of an UNSUBSCRIBE. -/
def UNSubscribe.tnum (sub : UNSubscribe) : ℕ :=
  sub.topics.foldl (fun tnum top => tnum + 2 + top.name.length) 0

/-- The variable is what the `case` of the message type asserts, a topic name is not nil, and the length
fits the four bytes of `getRemainingLength`. -/
def Pack.Encodes (pack : Pack) : Prop :=
  if pack.msgType = CONNACK then
    match pack.variable_ with
    | .connack _ => True
    | _ => False
  else if pack.msgType = PUBLISH then
    match pack.variable_ with
    | .publish pub => pub.Encodes pack.qosLevel
    | _ => False
  else if pack.msgType = PUBACK ∨ pack.msgType = PUBREC ∨ pack.msgType = PUBREL ∨
      pack.msgType = PUBCOMP then
    match pack.variable_ with
    | .puback _ => True
    | _ => False
  else if pack.msgType = SUBSCRIBE then
    match pack.variable_ with
    | .subscribe sub => sub.tnum < 128 ^ 4
    | _ => False
  else if pack.msgType = SUBACK then
    match pack.variable_ with
    | .suback _ => True
    | _ => False
  else if pack.msgType = UNSUBSCRIBE then
    match pack.variable_ with
    | .unsubscribe sub => sub.tnum < 128 ^ 4
    | _ => False
  else if pack.msgType = UNSUBACK then
    match pack.variable_ with
    | .unsuback _ => True
    | _ => False
  else True

/-- `m` does not panic, whatever the writer does. -/
def NoPanic {α : Type} (m : SinkM WriteErr α) : Prop := ∀ w w', m w ≠ .error .panic w'

namespace NoPanic

variable {α β : Type} {m : SinkM WriteErr α}

theorem pure (a : α) : NoPanic (Pure.pure a : SinkM WriteErr α) := nofun

theorem bind {f : α → SinkM WriteErr β} (hm : NoPanic m) (hf : ∀ a, NoPanic (f a)) :
    NoPanic (m >>= f) := by
  intro w w' h
  change EStateM.bind m f w = _ at h
  unfold EStateM.bind at h
  cases hw : m w with
  | ok a w₁ =>
    rw [hw] at h
    exact hf a w₁ w' h
  | error e w₁ =>
    rw [hw] at h
    obtain ⟨rfl, rfl⟩ := EStateM.Result.error.inj h
    exact hm w w₁ hw

theorem forM {γ : Type} {f : γ → SinkM WriteErr Unit} (hf : ∀ c, NoPanic (f c)) (cs : List γ) :
    NoPanic (cs.forM f) := by
  induction cs with
  | nil => exact pure ()
  | cons c cs ih => exact (hf c).bind fun _ => ih

theorem write (b : List UInt8) : NoPanic (ByteStream.write WriteErr.io b) := by
  intro w w' h
  unfold ByteStream.write at h
  split at h
  · cases h
  · split at h
    · cases h
    · cases h

end NoPanic

theorem noPanic_writeByte (b : UInt8) : NoPanic (writeByte b) := .write [b]

theorem noPanic_writeFull (b : List UInt8) : NoPanic (writeFull b) := by
  unfold writeFull
  split
  · exact .pure ()
  · exact .write b

theorem noPanic_writeInt (i : ℕ) : NoPanic (writeInt i) := noPanic_writeFull _

theorem noPanic_writeString (topic : GoString) : NoPanic (writeString (some topic)) :=
  (noPanic_writeInt _).bind fun _ => noPanic_writeFull _

/-- There is no room for a fifth digit. -/
theorem remainingDigits_eq_none {room n : ℕ} (h : 128 ^ room ≤ n) : remainingDigits room n = none := by
  induction room generalizing n with
  | zero => rfl
  | succ room ih =>
    have hdiv : 128 ^ room ≤ n / 128 := by
      rw [Nat.le_div_iff_mul_le (by decide), ← pow_succ]
      exact h
    have hpos : n / 128 > 0 := lt_of_lt_of_le (by positivity) hdiv
    rw [remainingDigits, if_pos hpos, ih hdiv, Option.map_none]

theorem getRemainingLength_eq_none {n : ℕ} (h : 128 ^ 4 ≤ n) : getRemainingLength n = none :=
  remainingDigits_eq_none h

theorem noPanic_writeLength {n : ℕ} (h : n < 128 ^ 4) : NoPanic (writeLength n) := by
  rw [writeLength, getRemainingLength_eq h]
  exact noPanic_writeFull _

theorem noPanic_writeLength0 {n : ℕ} (h : n < 128 ^ 4) : NoPanic (writeLength0 n) := by
  obtain ⟨b, bs, hencode⟩ : ∃ b bs, VarInt.encode n = b :: bs := by
    rw [VarInt.encode]
    split <;> exact ⟨_, _, rfl⟩
  rw [writeLength0, getRemainingLength_eq h, hencode]
  exact noPanic_writeByte b

theorem writeLength_panic {n : ℕ} (h : 128 ^ 4 ≤ n) : writeLength n = throw .panic := by
  rw [writeLength, getRemainingLength_eq_none h]

theorem writeLength0_panic {n : ℕ} (h : 128 ^ 4 ≤ n) : writeLength0 n = throw .panic := by
  rw [writeLength0, getRemainingLength_eq_none h]

/-- What comes after a panic is not reached. -/
theorem throw_bind {α β : Type} (e : WriteErr) (f : α → SinkM WriteErr β) :
    (throw e >>= f) = throw e := rfl

theorem noPanic_writeMid (mid : ℕ) : NoPanic (writeMid mid) :=
  (noPanic_writeLength0 (by decide)).bind fun _ => noPanic_writeInt mid

theorem noPanic_writePublish {qos : UInt8} {pub : Publish} (h : pub.Encodes qos) :
    NoPanic (writePublish qos pub) := by
  obtain ⟨name, mid, msg⟩ := pub
  cases name with
  | none => exact h.elim
  | some topic =>
    refine (noPanic_writeLength h).bind fun _ => (noPanic_writeString topic).bind fun _ => ?_
    split
    · exact (noPanic_writeInt mid).bind fun _ => noPanic_writeFull msg
    · exact noPanic_writeFull msg

theorem writePublish_panic {qos : UInt8} {pub : Publish} (h : ¬ pub.Encodes qos) :
    writePublish qos pub = throw .panic := by
  obtain ⟨name, mid, msg⟩ := pub
  cases name with
  | none => rfl
  | some topic =>
    rw [writePublish]
    dsimp only
    rw [writeLength_panic (Nat.not_lt.mp h), throw_bind]

theorem noPanic_writeSubscribe {sub : Subscribe} (h : sub.tnum < 128 ^ 4) :
    NoPanic (writeSubscribe sub) := by
  refine (noPanic_writeLength0 h).bind fun _ => (noPanic_writeInt _).bind fun _ => .forM ?_ _
  exact fun top => (noPanic_writeInt _).bind fun _ => (noPanic_writeFull _).bind fun _ =>
    noPanic_writeByte _

theorem writeSubscribe_panic {sub : Subscribe} (h : ¬ sub.tnum < 128 ^ 4) :
    writeSubscribe sub = throw .panic := by
  have hlength : writeLength0 (sub.topics.foldl (fun tnum top => tnum + 2 + top.name.length + 1) 0)
      = throw .panic := writeLength0_panic (Nat.not_lt.mp h)
  rw [writeSubscribe, hlength, throw_bind]

theorem noPanic_writeUNSubscribe {sub : UNSubscribe} (h : sub.tnum < 128 ^ 4) :
    NoPanic (writeUNSubscribe sub) := by
  refine (noPanic_writeLength0 h).bind fun _ => (noPanic_writeInt _).bind fun _ => .forM ?_ _
  exact fun top => (noPanic_writeInt _).bind fun _ => noPanic_writeFull _

theorem writeUNSubscribe_panic {sub : UNSubscribe} (h : ¬ sub.tnum < 128 ^ 4) :
    writeUNSubscribe sub = throw .panic := by
  have hlength : writeLength0 (sub.topics.foldl (fun tnum top => tnum + 2 + top.name.length) 0)
      = throw .panic := writeLength0_panic (Nat.not_lt.mp h)
  rw [writeUNSubscribe, hlength, throw_bind]

theorem noPanic_writeSuback (ack : Suback) : NoPanic (writeSuback ack) :=
  (noPanic_writeLength0 (by decide)).bind fun _ => (noPanic_writeInt _).bind fun _ =>
    noPanic_writeByte _

theorem noPanic_writeVariable {pack : Pack} (h : pack.Encodes) : NoPanic (writeVariable pack) := by
  obtain ⟨msgType, dup, qos, retain, length, v⟩ := pack
  unfold Pack.Encodes at h
  unfold writeVariable
  dsimp only at h ⊢
  split_ifs at h ⊢
  · cases v with
    | connack ack => exact (noPanic_writeLength0 (by decide)).bind fun _ => noPanic_writeFull _
    | _ => exact h.elim
  · cases v with
    | publish pub => exact noPanic_writePublish h
    | _ => exact h.elim
  · cases v with
    | puback ack => exact noPanic_writeMid ack.mid
    | _ => exact h.elim
  · cases v with
    | subscribe sub => exact noPanic_writeSubscribe h
    | _ => exact h.elim
  · cases v with
    | suback ack => exact noPanic_writeSuback ack
    | _ => exact h.elim
  · cases v with
    | unsubscribe sub => exact noPanic_writeUNSubscribe h
    | _ => exact h.elim
  · cases v with
    | unsuback ack => exact noPanic_writeMid ack.mid
    | _ => exact h.elim
  · exact noPanic_writeByte 0
  · exact .pure ()

/-- The panic comes before the first byte of the remaining length. -/
theorem writeVariable_panic {pack : Pack} (h : ¬ pack.Encodes) : writeVariable pack = throw .panic := by
  obtain ⟨msgType, dup, qos, retain, length, v⟩ := pack
  unfold Pack.Encodes at h
  unfold writeVariable
  dsimp only at h ⊢
  split_ifs at h ⊢
  · cases v with
    | connack ack => exact absurd trivial h
    | _ => rfl
  · cases v with
    | publish pub => exact writePublish_panic h
    | _ => rfl
  · cases v with
    | puback ack => exact absurd trivial h
    | _ => rfl
  · cases v with
    | subscribe sub => exact writeSubscribe_panic h
    | _ => rfl
  · cases v with
    | suback ack => exact absurd trivial h
    | _ => rfl
  · cases v with
    | unsubscribe sub => exact writeUNSubscribe_panic h
    | _ => rfl
  · cases v with
    | unsuback ack => exact absurd trivial h
    | _ => rfl
  all_goals exact absurd trivial h

theorem delayWritePack_of_accepts {pack : Pack} {w : Sink} (h : w.Accepts 1) :
    delayWritePack pack w = writeVariable pack { w with out := w.out ++ [pack.fixedByte] } := by
  have hbind : delayWritePack pack w
      = EStateM.bind (writeByte pack.fixedByte) (fun _ => writeVariable pack) w := rfl
  rw [hbind]
  unfold EStateM.bind
  rw [writeByte, write_of_accepts h]

theorem delayWritePack_of_not_accepts (pack : Pack) {w : Sink} (h : ¬ w.Accepts 1) :
    ∃ w', delayWritePack pack w = .error .io w' := by
  have hbind : delayWritePack pack w
      = EStateM.bind (writeByte pack.fixedByte) (fun _ => writeVariable pack) w := rfl
  obtain ⟨w', hw'⟩ : ∃ w', writeByte pack.fixedByte w = .error .io w' := write_of_not_accepts h
  rw [hbind]
  unfold EStateM.bind
  rw [hw']
  exact ⟨w', rfl⟩

/-- **When the encoder panics.** The first byte is written before anything is looked at. -/
theorem delayWritePack_panic_iff {pack : Pack} {w : Sink} :
    (∃ w', delayWritePack pack w = .error .panic w') ↔ w.Accepts 1 ∧ ¬ pack.Encodes := by
  by_cases haccepts : w.Accepts 1
  · rw [delayWritePack_of_accepts haccepts]
    constructor
    · rintro ⟨w', hw'⟩
      exact ⟨haccepts, fun h => noPanic_writeVariable h _ _ hw'⟩
    · rintro ⟨-, h⟩
      rw [writeVariable_panic h]
      exact ⟨_, rfl⟩
  · obtain ⟨w', hw'⟩ := delayWritePack_of_not_accepts pack haccepts
    rw [hw']
    refine iff_of_false ?_ fun h => haccepts h.1
    rintro ⟨w'', ⟨⟩⟩

/-- A pack that does not encode is not written, whatever the writer does. -/
theorem delayWritePack_error {pack : Pack} (h : ¬ pack.Encodes) (w : Sink) :
    ∃ e w', delayWritePack pack w = .error e w' := by
  by_cases haccepts : w.Accepts 1
  · obtain ⟨w', hw'⟩ := delayWritePack_panic_iff.mpr ⟨haccepts, h⟩
    exact ⟨_, w', hw'⟩
  · obtain ⟨w', hw'⟩ := delayWritePack_of_not_accepts pack haccepts
    exact ⟨_, w', hw'⟩

theorem encodes_getPubPack {mid : ℕ} {topic : GoString} {body : List UInt8} :
    (getPubPack 0 0 mid topic body).Encodes ↔ 2 + topic.length + body.length < 128 ^ 4 := Iff.rfl

/-! ## The calls under the lock -/

/-- The errors of `WritePack` and `WriteMsg`. -/
inductive QueueErr where
  | disconnect
  | writeError
  /-- `bufio.Writer is full`. -/
  | full
  | encode (e : WriteErr)
  /-- `WritePack error`, with the stack of a panic. -/
  | recovered
  /-- `connection is closed`, of `WriteMsg`. -/
  | stopped
deriving DecidableEq

/-- What a call of `WritePack` changes. -/
structure LockedQueue where
  writelock : Bool
  w : Sink
  /-- The errors that `Close` was called with. -/
  closed : List QueueErr

/-- What a call of `WritePack` finds in the fields it reads. -/
structure Found where
  connected : Bool
  writeError : Bool
  available : ℕ
  fchClosed : Bool

namespace LockedQueue

def lock : Prog LockedQueue Unit := .modify fun q => { q with writelock := true }

def unlock : Prog LockedQueue Unit := .modify fun q => { q with writelock := false }

def close (err : QueueErr) : Prog LockedQueue Unit :=
  .modify fun q => { q with closed := q.closed ++ [err] }

/-- `err = DelayWritePack(pack, queue.w)`. -/
def encode (pack : Pack) : Prog LockedQueue (Option WriteErr) := fun q =>
  match delayWritePack pack q.w with
  | .ok _ w => (.ok none, { q with w })
  | .error .panic w => (.error .other, { q with w })
  | .error e w => (.ok (some e), { q with w })

/-- `queue.fch <- struct{}{}`, when it does not block for ever. -/
def send (found : Found) : Prog LockedQueue Unit :=
  if found.fchClosed then .panic (.error "send on closed channel") else pure ()

/-- What follows `DelayWritePack`. -/
def afterEncode (found : Found) (err : Option WriteErr) : Prog LockedQueue (Option QueueErr) := do
  unlock
  send found
  match err with
  | some e => do
    close (.encode e)
    pure (some (.encode e))
  | none => pure none

/-- The statements of `WritePack`. -/
def writePackBody (found : Found) (pack : Pack) : Prog LockedQueue (Option QueueErr) := do
  lock
  if !found.connected then do
    unlock
    pure (some .disconnect)
  else if found.writeError then do
    unlock
    pure (some .writeError)
  else if found.available ≤ 0 then do
    unlock
    pure (some .full)
  else do
    let err ← encode pack
    afterEncode found err

/-- `WritePack`, from the moment it gets the lock. -/
def writePack (found : Found) (pack : Pack) : Prog LockedQueue (Option QueueErr) :=
  .deferRecover false (some .recovered) (writePackBody found pack) fun
    | some _ => close .recovered
    | none => pure ()

/-- One round of `Flusher`, from the moment it gets the lock: whether it goes on. -/
def flushRound (connected : Bool) (buffered : ℕ) (flushErr : Bool) : Prog LockedQueue Bool := do
  lock
  if !connected then do
    unlock
    pure false
  else if buffered > 0 && flushErr then do
    unlock
    pure false
  else do
    unlock
    pure true

/-- `Client.WriteMsg`, with the next id of `getOnlineMsgId`. -/
def writeMsg (isStop : Bool) (mid : ℕ) (topic : GoString) (body : List UInt8) (found : Found) :
    Prog LockedQueue (Option QueueErr) :=
  if isStop then pure (some .stopped)
  else writePack found (getPubPack 0 0 mid topic body)

end LockedQueue

/-- The checks before `DelayWritePack` pass. -/
def Found.Passes (found : Found) : Prop :=
  found.connected = true ∧ found.writeError = false ∧ 0 < found.available

/-- The encoder is reached and does not panic, or it is not reached. -/
def LockedQueue.Releases (q : LockedQueue) (found : Found) (pack : Pack) : Prop :=
  found.Passes → q.w.Accepts 1 → pack.Encodes

namespace LockedQueue

variable {found : Found} {pack : Pack} {q : LockedQueue}

theorem lock_bind {α : Type} (x : Prog LockedQueue α) :
    (lock >>= fun _ => x) q = x { q with writelock := true } := rfl

theorem unlock_bind {α : Type} (x : Prog LockedQueue α) :
    (unlock >>= fun _ => x) q = x { q with writelock := false } := rfl

theorem afterEncode_writelock (err : Option WriteErr) : (afterEncode found err q).2.writelock = false := by
  unfold afterEncode send
  rw [unlock_bind]
  split
  · rfl
  · cases err <;> rfl

/-- `Close` takes no lock. -/
theorem recovered_writelock (x : Prog LockedQueue (Option QueueErr)) :
    (Prog.deferRecover false (some .recovered) x (fun
      | some _ => close .recovered
      | none => pure ()) q).2.writelock = (x q).2.writelock := by
  unfold Prog.deferRecover
  split
  · next hx =>
    rw [hx]
    rfl
  · next v _ hx =>
    rw [hx]
    cases v <;> rfl

theorem encode_of_panic {w' : Sink} (h : delayWritePack pack q.w = .error .panic w') :
    encode pack q = (.error .other, { q with w := w' }) := by
  rw [encode, h]

/-- Without a panic the encoder comes back. -/
theorem encode_of_not_panic (h : ¬ ∃ w', delayWritePack pack q.w = .error .panic w') :
    ∃ err w', encode pack q = (.ok err, { q with w := w' }) := by
  unfold encode
  cases hw : delayWritePack pack q.w with
  | ok u w => exact ⟨none, w, rfl⟩
  | error e w =>
    cases e with
    | panic => exact absurd ⟨w, hw⟩ h
    | io => exact ⟨some .io, w, rfl⟩
    | nilPointer => exact ⟨some .nilPointer, w, rfl⟩

theorem writePackBody_writelock :
    (writePackBody found pack q).2.writelock = false ↔ q.Releases found pack := by
  unfold writePackBody
  rw [lock_bind]
  by_cases hpasses : found.Passes
  · obtain ⟨hconnected, herr, havailable⟩ := hpasses
    rw [hconnected, herr, if_neg (by decide), if_neg (by decide), if_neg (by omega)]
    by_cases hpanic : ∃ w', delayWritePack pack q.w = .error .panic w'
    · -- the statements after `DelayWritePack` are skipped, the `Unlock` with them
      obtain ⟨haccepts, hencodes⟩ := delayWritePack_panic_iff.mp hpanic
      obtain ⟨w', hw'⟩ := hpanic
      have hencode : encode pack { q with writelock := true }
          = (.error .other, { q with writelock := true, w := w' }) := encode_of_panic hw'
      rw [Prog.bind_of_error (congrArg Prod.fst hencode), hencode]
      refine iff_of_false nofun fun h => hencodes ?_
      exact h ⟨hconnected, herr, havailable⟩ haccepts
    · obtain ⟨err, w', hw'⟩ : ∃ err w', encode pack { q with writelock := true }
          = (.ok err, { q with writelock := true, w := w' }) := encode_of_not_panic hpanic
      rw [Prog.bind_of_ok (congrArg Prod.fst hw')]
      refine iff_of_true (afterEncode_writelock err) fun _ haccepts => ?_
      by_contra hencodes
      exact hpanic (delayWritePack_panic_iff.mpr ⟨haccepts, hencodes⟩)
  · -- a check that fails unlocks before it returns
    refine iff_of_true ?_ fun h => absurd h hpasses
    split_ifs with hconnected herr havailable
    · rfl
    · rfl
    · rfl
    · refine absurd ⟨?_, ?_, ?_⟩ hpasses
      · simpa using hconnected
      · simpa using herr
      · omega

/-- **The write lock after a call.** For every pack, every writer and everything that a call of `WritePack`
finds in the queue: when it has returned, the lock is free exactly if the pack encodes, or a check refuses
the call, or the writer does not take the first byte. -/
theorem writePack_unlocks_iff (found : Found) (pack : Pack) (q : LockedQueue) :
    (writePack found pack q).2.writelock = false ↔ q.Releases found pack := by
  rw [writePack, recovered_writelock, writePackBody_writelock]

/-- A client with one message of `2 ^ 28` bytes, on a connection where every write would succeed: the call
returns with the lock held. -/
theorem writeMsg_keeps_lock :
    (writeMsg false 1 [116] (List.replicate (2 ^ 28) 0) ⟨true, false, 4096, false⟩
      ⟨false, ⟨[], none⟩, []⟩).2.writelock = true := by
  have hmsg : writeMsg false 1 [116] (List.replicate (2 ^ 28) 0) ⟨true, false, 4096, false⟩
      = writePack ⟨true, false, 4096, false⟩ (getPubPack 0 0 1 [116] (List.replicate (2 ^ 28) 0)) := rfl
  rw [hmsg, writePack, recovered_writelock, ← Bool.not_eq_false, writePackBody_writelock]
  intro h
  have hencodes := encodes_getPubPack.mp (h ⟨rfl, rfl, by decide⟩ nofun)
  rw [List.length_replicate] at hencodes
  omega

/-- The same for `WriteMsg`, where the pack is a PUBLISH at QoS 0: the topic and the body together stay
below `2 ^ 28 - 2` bytes. -/
theorem writeMsg_unlocks_iff {isStop : Bool} {mid : ℕ} {topic : GoString} {body : List UInt8}
    (hfree : q.writelock = false) :
    (writeMsg isStop mid topic body found q).2.writelock = false ↔
      (isStop = false → found.Passes → q.w.Accepts 1 → 2 + topic.length + body.length < 128 ^ 4) := by
  cases isStop with
  | true => exact iff_of_true hfree nofun
  | false =>
    have hmsg : writeMsg false mid topic body found = writePack found (getPubPack 0 0 mid topic body) := rfl
    rw [hmsg, writePack, recovered_writelock, writePackBody_writelock, forall_prop_of_true rfl]
    exact imp_congr_right fun _ => imp_congr_right fun _ => encodes_getPubPack

/-! ## The calls that come later -/

/-- A turn of a goroutine that wants the lock. -/
inductive Turn where
  | writePack (found : Found) (pack : Pack)
  | flushRound (connected : Bool) (buffered : ℕ) (flushErr : Bool)

/-- The queue after a turn; `Lock` waits for ever when the lock is held. -/
def turn (q : LockedQueue) (t : Turn) : Option LockedQueue :=
  if q.writelock then none
  else match t with
    | .writePack found pack => some (writePack found pack q).2
    | .flushRound connected buffered flushErr => some (flushRound connected buffered flushErr q).2

/-- The turn gives the lock back. -/
def TurnReleases (q : LockedQueue) : Turn → Prop
  | .writePack found pack => q.Releases found pack
  | .flushRound _ _ _ => True

/-- The flusher unlocks on each of its paths. -/
theorem flushRound_writelock (connected : Bool) (buffered : ℕ) (flushErr : Bool) :
    (flushRound connected buffered flushErr q).2.writelock = false := by
  unfold flushRound
  rw [lock_bind]
  split_ifs <;> rfl

theorem turn_writelock {t : Turn} {q' : LockedQueue} (h : turn q t = some q') :
    q'.writelock = false ↔ TurnReleases q t := by
  unfold turn at h
  split at h
  · cases h
  · cases t with
    | writePack found pack =>
      obtain rfl := Option.some.inj h
      rw [writePack, recovered_writelock]
      exact writePackBody_writelock
    | flushRound connected buffered flushErr =>
      obtain rfl := Option.some.inj h
      exact iff_of_true (flushRound_writelock connected buffered flushErr) trivial

/-- Any number of turns, one after another in the order of the lock, all come to their end with a free lock
exactly if each of them gives the lock back. -/
theorem turns_iff (hfree : q.writelock = false) (ts : List Turn) :
    (∃ q', run turn q ts = some q' ∧ q'.writelock = false) ↔ Along turn TurnReleases q ts := by
  refine run_iff_along (fun q t hq => ?_) (fun q t hq => ?_) (fun q t q' _ => turn_writelock) hfree ts
  · unfold turn
    rw [hq]
    cases t <;> exact ⟨_, rfl⟩
  · exact if_pos (Bool.eq_true_of_not_eq_false hq)

end LockedQueue

end Vmqant.Mqtt
