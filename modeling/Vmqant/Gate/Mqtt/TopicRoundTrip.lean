import Vmqant.Gate.Mqtt.FrameDiscipline
import Vmqant.Gate.Mqtt.WriteLock

/-!
# Subscriptions and their way back

Reference: `gate/base/mqtt/mqtt.go`, lines 511-585 and 731-791.

The encoder declares the length of the topics without the message id, and writes one byte of it; the decoder
counts down from the declared length and stops at three. The two slips compensate for short lists.
`subscription_back_iff` says for which lists: a length of two bytes makes the decoder take the first byte of
the message id for the second one of the length, and everything after it is read in the wrong place.
-/

namespace Vmqant.Mqtt

open ByteStream

/-! ## What the encoder writes -/

/-- A SUBSCRIBE. -/
def subscribePack (dup : Fin 2) (qos : Fin 4) (mid : ℕ) (topics : List Topics) : Pack :=
  { msgType := SUBSCRIBE, dupFlag := UInt8.ofNat dup, qosLevel := UInt8.ofNat qos,
    variable_ := .subscribe { mid, topics } }

/-- An UNSUBSCRIBE. -/
def unsubscribePack (dup : Fin 2) (qos : Fin 4) (mid : ℕ) (topics : List Topics) : Pack :=
  { msgType := UNSUBSCRIBE, dupFlag := UInt8.ofNat dup, qosLevel := UInt8.ofNat qos,
    variable_ := .unsubscribe { mid, topics } }

/-- What is written for `pack` is read back as `v`, and nothing is left. -/
def ComesBack (maxPackLength : ℤ) (pack : Pack) (v : Variable) : Prop :=
  ∃ bytes pack', delayWritePack pack ⟨[], none⟩ = .ok () ⟨bytes, none⟩ ∧
    readPack maxPackLength bytes = .ok pack' [] ∧ pack'.variable_ = v

/-- The only byte of the remaining length that a subscription gets. -/
def length0 (n : ℕ) : UInt8 := if n < 128 then UInt8.ofNat n else UInt8.ofNat (n % 128 + 128)

theorem toNat_length0 (n : ℕ) : (length0 n).toNat = if n < 128 then n else n % 128 + 128 := by
  unfold length0
  split
  · next h => exact VarInt.toNat_low h
  · exact VarInt.toNat_high n

theorem writeLength0_writes_length0 {n : ℕ} (h : n < 128 ^ 4) : Writes (writeLength0 n) [length0 n] := by
  rw [writeLength0, getRemainingLength_eq h, length0]
  by_cases hn : n < 128
  · rw [VarInt.encode_of_lt hn, if_pos hn]
    exact writeByte_writes _
  · rw [VarInt.encode_of_ge (Nat.not_lt.mp hn), if_neg hn]
    exact writeByte_writes _

/-- A sum of lengths that a loop adds up. -/
theorem foldl_eq_length_flatMap {enc : Topics → List UInt8} {add : ℕ → Topics → ℕ}
    (hadd : ∀ n t, add n t = n + (enc t).length) (topics : List Topics) (n : ℕ) :
    topics.foldl add n = n + (topics.flatMap enc).length := by
  induction topics generalizing n with
  | nil => rfl
  | cons t ts ih => rw [List.foldl_cons, ih, hadd, List.flatMap_cons, List.length_append, Nat.add_assoc]

theorem tnum_subscribe (mid : ℕ) (topics : List Topics) :
    (Subscribe.mk mid topics).tnum = (topics.flatMap topicBytes).length := by
  refine (foldl_eq_length_flatMap (fun n t => ?_) topics 0).trans (Nat.zero_add _)
  rw [topicBytes, List.length_append, List.length_append, length_putUint16, List.length_singleton]
  omega

theorem tnum_unsubscribe (mid : ℕ) (topics : List Topics) :
    (UNSubscribe.mk mid topics).tnum = (topics.flatMap unTopicBytes).length := by
  refine (foldl_eq_length_flatMap (fun n t => ?_) topics 0).trans (Nat.zero_add _)
  rw [unTopicBytes, List.length_append, length_putUint16]
  omega

/-- The bytes of a subscription whose topics take the bytes `body`. -/
def topicsWire (fixed : UInt8) (mid : ℕ) (body : List UInt8) : List UInt8 :=
  fixed :: length0 body.length :: (putUint16 mid ++ body)

/-- The encoder of a list that `tnum` says the length of, and `loop` writes. -/
theorem topicsWire_writes {fixed : UInt8} {mid tnum : ℕ} {body : List UInt8} {loop : SinkM WriteErr Unit}
    (htnum : tnum = body.length) (h : body.length < 128 ^ 4) (hloop : Writes loop body) :
    Writes (do
      writeByte fixed
      writeLength0 tnum
      writeInt mid
      loop) (topicsWire fixed mid body) := by
  rw [htnum]
  exact (writeByte_writes _).bind
    ((writeLength0_writes_length0 h).bind ((writeInt_writes mid).bind hloop))

theorem subscribePack_writes {dup : Fin 2} {qos : Fin 4} {mid : ℕ} {topics : List Topics}
    (h : (topics.flatMap topicBytes).length < 128 ^ 4) :
    Writes (delayWritePack (subscribePack dup qos mid topics))
      (topicsWire (subscribePack dup qos mid topics).fixedByte mid (topics.flatMap topicBytes)) := by
  refine topicsWire_writes (tnum_subscribe mid topics) h (Writes.forM fun top _ => ?_)
  exact (writeInt_writes _).bind ((writeFull_writes _).bind (writeByte_writes _))

theorem unsubscribePack_writes {dup : Fin 2} {qos : Fin 4} {mid : ℕ} {topics : List Topics}
    (h : (topics.flatMap unTopicBytes).length < 128 ^ 4) :
    Writes (delayWritePack (unsubscribePack dup qos mid topics))
      (topicsWire (unsubscribePack dup qos mid topics).fixedByte mid (topics.flatMap unTopicBytes)) := by
  refine topicsWire_writes (tnum_unsubscribe mid topics) h (Writes.forM fun top _ => ?_)
  exact (writeInt_writes _).bind (writeFull_writes _)

/-! ## What the loops read -/

/-- The topics of a loop are on the stream, where what is missing at its end is read as zeros. -/
structure Rereads (entry : List UInt8 → Option (Topics × ℕ) × List UInt8) (enc : Topics → List UInt8) :
    Prop where
  entry_eq : ∀ s t n s', entry s = (some (t, n), s') →
    ∃ k, s ++ List.replicate k 0 = enc t ++ s'

theorem readTopic_rereads : Rereads readTopic topicBytes := by
  refine ⟨fun s t n s' h => ⟨0, ?_⟩⟩
  rw [List.replicate_zero, List.append_nil]
  rcases readInt_cases s with ⟨-, e, he⟩ | ⟨nlen, s₁, hnlen, rfl, hok⟩
  · rw [readTopic, he] at h
    cases h
  · rw [readTopic, hok] at h
    dsimp only at h
    cases hq : s₁.drop nlen with
    | nil =>
      rw [hq] at h
      cases h
    | cons q rest =>
      rw [hq] at h
      obtain ⟨htop, rfl⟩ := Prod.mk.inj h
      obtain ⟨rfl, -⟩ := Prod.mk.inj (Option.some.inj htop)
      have hlen : nlen < s₁.length := by
        have hpos : 0 < (s₁.drop nlen).length := by rw [hq, List.length_cons]; omega
        rw [List.length_drop] at hpos
        omega
      have hbuf : fillBuf nlen s₁ = s₁.take nlen := by
        rw [fillBuf, Nat.sub_eq_zero_of_le hlen.le, List.replicate_zero, List.append_nil]
      have htake : (s₁.take nlen).length = nlen := by
        rw [List.length_take]
        omega
      rw [topicBytes, hbuf, htake, List.append_assoc, List.append_assoc, List.singleton_append, ← hq,
        List.take_append_drop]

theorem readUNTopic_rereads : Rereads readUNTopic unTopicBytes := by
  refine ⟨fun s t n s' h => ?_⟩
  rcases readInt_cases s with ⟨-, e, he⟩ | ⟨nlen, s₁, hnlen, rfl, hok⟩
  · rw [readUNTopic, he] at h
    cases h
  · rw [readUNTopic, hok] at h
    obtain ⟨htop, rfl⟩ := Prod.mk.inj h
    obtain ⟨rfl, -⟩ := Prod.mk.inj (Option.some.inj htop)
    have hbuf : (fillBuf nlen s₁).length = nlen := by
      rw [fillBuf, List.length_append, List.length_take, List.length_replicate]
      omega
    -- the zeros are those that the buffer was made with
    refine ⟨nlen - s₁.length, ?_⟩
    rw [unTopicBytes, hbuf, List.append_assoc, List.append_assoc, fillBuf]
    congr 1
    rcases Nat.lt_or_ge s₁.length nlen with hlt | hge
    · rw [List.take_of_length_le hlt.le, List.drop_eq_nil_of_le hlt.le, List.append_nil]
    · rw [Nat.sub_eq_zero_of_le hge, List.replicate_zero, List.append_nil, List.append_nil,
        List.take_append_drop]

section

variable {entry : List UInt8 → Option (Topics × ℕ) × List UInt8} {enc : Topics → List UInt8}
  {valid : Topics → Prop}

theorem Rereads.topicLoop (h : Rereads entry enc) (vlen : ℤ) (acc : List Topics) (s : List UInt8) :
    ∃ ts k, (Mqtt.topicLoop entry vlen acc s).1 = acc ++ ts ∧ ts.flatMap enc <+: s ++ List.replicate k 0 := by
  induction hn : vlen.toNat using Nat.strongRecOn generalizing vlen acc s with
  | ind n ih =>
    by_cases hvlen : vlen > 3
    · rw [Mqtt.topicLoop, if_pos hvlen]
      cases hentry : entry s with
      | mk top s' =>
        cases top with
        | none => exact ⟨[], 0, (List.append_nil _).symm, List.nil_prefix⟩
        | some top =>
          obtain ⟨t, m⟩ := top
          obtain ⟨k, hk⟩ := h.entry_eq s t m s' hentry
          obtain ⟨ts, j, hts, hstart⟩ := ih _ (by omega) (vlen - 2 - m) (acc ++ [t]) s' rfl
          refine ⟨t :: ts, k + j, ?_, ?_⟩
          · rw [hts, List.append_assoc, List.singleton_append]
          · rw [List.replicate_add, ← List.append_assoc, hk, List.flatMap_cons, List.append_assoc]
            exact (List.prefix_append_right_inj _).mpr hstart
    · rw [Mqtt.topicLoop, if_neg hvlen]
      exact ⟨[], 0, (List.append_nil _).symm, List.nil_prefix⟩

/-- Bytes that come again when some of them are dropped, with zeros at the end, are all zero. -/
theorem eq_zero_of_shift {pre s : List UInt8} {k : ℕ} (hpre : pre ≠ [])
    (h : pre ++ s <+: s ++ List.replicate k 0) : ∀ b ∈ pre ++ s, b = 0 := by
  induction s generalizing pre with
  | nil =>
    intro b hb
    exact List.eq_of_mem_replicate (h.subset hb)
  | cons x s ih =>
    obtain ⟨p, pre, rfl⟩ := List.exists_cons_of_ne_nil hpre
    obtain ⟨rfl, htail⟩ := List.cons_prefix_cons.mp h
    have hzero := @ih (pre ++ [p]) (by simp) (by simpa using htail)
    intro b hb
    refine hzero b ?_
    simp only [List.cons_append, List.mem_cons, List.mem_append, List.append_assoc] at hb ⊢
    tauto

/-- The loop over the bytes of a list, with their number as `vlen`, takes the last topic exactly if its
entry has more than three bytes. -/
theorem topicLoop_all (h : EntrySpec entry enc valid) (init : List Topics) (t : Topics)
    (hvalid : ∀ u ∈ init ++ [t], valid u) :
    topicLoop entry ((init ++ [t]).flatMap enc).length [] ((init ++ [t]).flatMap enc)
      = if 3 < (enc t).length then (init ++ [t], []) else (init, enc t) := by
  have hflat : (init ++ [t]).flatMap enc = init.flatMap enc ++ enc t := by
    rw [List.flatMap_append, List.flatMap_singleton]
  have hle := h.le_length t
  rw [hflat, List.length_append, topicLoop_append h init []
    (fun u hu => hvalid u (List.mem_append_left _ hu)) _ (by push_cast; omega)]
  have hleft : ((init.flatMap enc).length + (enc t).length : ℕ) - ((init.flatMap enc).length : ℤ)
      = (enc t).length := by
    push_cast
    ring
  rw [hleft, List.nil_append, topicLoop]
  by_cases hlong : 3 < (enc t).length
  · have hread := h.read t (hvalid t (by simp)) []
    rw [List.append_nil] at hread
    rw [if_pos (by omega), if_pos hlong, hread]
    dsimp only
    rw [topicLoop, if_neg (by omega)]
  · rw [if_neg (by omega), if_neg hlong]

/-- The first byte of a topic list is not zero, or the second one. -/
theorem exists_ne_zero (henc : ∀ t, ∃ r, enc t = putUint16 t.name.length ++ r) {topics : List Topics}
    (hne : topics ≠ []) (hnames : ∀ t ∈ topics, 1 ≤ t.name.length ∧ t.name.length ≤ 65535) :
    ∃ b ∈ topics.flatMap enc, b ≠ 0 := by
  obtain ⟨t, ts, rfl⟩ := List.exists_cons_of_ne_nil hne
  obtain ⟨hpos, hle⟩ := hnames t List.mem_cons_self
  obtain ⟨r, hr⟩ := henc t
  by_contra hzero
  push Not at hzero
  have hmem : ∀ b ∈ putUint16 t.name.length, b ∈ (t :: ts).flatMap enc := by
    intro b hb
    rw [List.flatMap_cons, hr]
    exact List.mem_append_left _ (List.mem_append_left _ hb)
  obtain ⟨hi, lo, hput⟩ : ∃ hi lo, putUint16 t.name.length = [hi, lo] := ⟨_, _, rfl⟩
  have hhi := hzero hi (hmem hi (by rw [hput]; exact List.mem_cons_self))
  have hlo := hzero lo (hmem lo (by rw [hput]; simp))
  have hval := uint16_putUint16 (i := t.name.length) (by omega)
  rw [hput, hhi, hlo] at hval
  have hzero' : t.name.length = 0 := hval.symm
  omega

/-! ## The way back -/

/-- The two readers: a message id, and then the topics that the loop finds. -/
def ReadsTopics (entry : List UInt8 → Option (Topics × ℕ) × List UInt8) (fixed : UInt8)
    (mk : ℕ → List Topics → Variable) : Prop :=
  ∀ n b mid topics s', readVariable (fixed >>> 4) ((fixed &&& 15 &&& 7) >>> 1) n b = .ok (mk mid topics) s' ↔
    mid < 65536 ∧ ∃ s, b = putUint16 mid ++ s ∧ topicLoop entry n [] s = (topics, s')

variable {fixed : UInt8} {mk : ℕ → List Topics → Variable} {mid : ℕ} {topics : List Topics}
  {maxPackLength : ℤ}

/-- With a length of one byte the decoder finds the message id and the topics where they are. -/
theorem readPack_topicsWire_short (hread : ReadsTopics entry fixed mk) (hmid : mid < 65536)
    {body : List UInt8} (hshort : body.length < 128) (hmax : (body.length : ℤ) ≤ maxPackLength) :
    (∃ pack, readPack maxPackLength (topicsWire fixed mid body) = .ok pack [] ∧
      pack.variable_ = mk mid topics) ↔ topicLoop entry body.length [] body = (topics, []) := by
  have hlength : LengthBytes 2 [length0 body.length] body.length := by
    have htoNat := toNat_length0 body.length
    rw [if_pos hshort] at htoNat
    have hstop : LengthBytes 2 [length0 body.length] ((length0 body.length).toNat % 128) :=
      .stop (.inl (htoNat.trans_lt hshort))
    rwa [htoNat, Nat.mod_eq_of_lt hshort] at hstop
  constructor
  · rintro ⟨pack, hpack, hv⟩
    obtain ⟨fixed', len, b, n, v, hs, hlen, -, hvar, rfl⟩ := readPack_eq_ok.mp hpack
    obtain ⟨rfl, htail⟩ := List.cons.inj hs
    obtain ⟨rfl, rfl⟩ := hlength.unique hlen htail
    obtain rfl : v = mk mid topics := hv
    obtain ⟨-, s, hb, hloop⟩ := (hread _ _ _ _ _).mp hvar
    have happend : putUint16 mid ++ body = putUint16 mid ++ s := hb
    obtain rfl := List.append_cancel_left happend
    exact hloop
  · intro hloop
    refine ⟨_, readPack_eq_ok.mpr ⟨fixed, [length0 body.length], putUint16 mid ++ body, body.length,
      mk mid topics, rfl, hlength, hmax, ?_, rfl⟩, rfl⟩
    exact (hread _ _ _ _ _).mpr ⟨hmid, body, rfl, hloop⟩

/-- With a longer one it takes the message id for a part of the length, and what it finds is not what was
written. -/
theorem not_readPack_topicsWire_long (hread : ReadsTopics entry fixed mk) (hrereads : Rereads entry enc)
    (henc : ∀ t, ∃ r, enc t = putUint16 t.name.length ++ r)
    (hnames : ∀ t ∈ topics, 1 ≤ t.name.length ∧ t.name.length ≤ 65535)
    (hlong : 128 ≤ (topics.flatMap enc).length) {pack : Pack} {s' : List UInt8}
    (hpack : readPack maxPackLength (topicsWire fixed mid (topics.flatMap enc)) = .ok pack s') :
    pack.variable_ ≠ mk mid topics := by
  intro hv
  obtain ⟨fixed', len, b, n, v, hs, hlen, -, hvar, rfl⟩ := readPack_eq_ok.mp hpack
  obtain rfl : v = mk mid topics := hv
  obtain ⟨rfl, htail⟩ := List.cons.inj hs
  obtain ⟨-, s, rfl, hloop⟩ := (hread _ _ _ _ _).mp hvar
  have htop : 128 ≤ (length0 (topics.flatMap enc).length).toNat := by
    rw [toNat_length0, if_neg (by omega)]
    omega
  -- the length has a second byte, so the bytes of the topics are read with an offset
  obtain ⟨c, cs, rfl⟩ : ∃ c cs, len = length0 (topics.flatMap enc).length :: c :: cs := by
    cases hlen with
    | stop h =>
      obtain ⟨rfl, -⟩ := List.cons.inj htail
      omega
    | more hb h =>
      obtain ⟨rfl, -⟩ := List.cons.inj htail
      cases h with
      | stop => exact ⟨_, _, rfl⟩
      | more => exact ⟨_, _, rfl⟩
  obtain ⟨pre, hpre, hbody⟩ : ∃ pre, pre ≠ [] ∧ topics.flatMap enc = pre ++ s := by
    have hsplit : putUint16 mid ++ topics.flatMap enc = c :: cs ++ putUint16 mid ++ s := by
      have h : putUint16 mid ++ topics.flatMap enc = c :: cs ++ (putUint16 mid ++ s) :=
        (List.cons.inj htail).2
      rw [h, List.append_assoc]
    have hlength := congrArg List.length hsplit
    simp only [List.length_append, List.length_cons, length_putUint16] at hlength
    refine ⟨(c :: cs ++ putUint16 mid).drop 2, ?_, ?_⟩
    · intro hnil
      have h := congrArg List.length hnil
      simp only [List.length_drop, List.length_append, List.length_cons, length_putUint16,
        List.length_nil] at h
      omega
    · have h := congrArg (List.drop 2) hsplit
      rwa [List.drop_left' (length_putUint16 mid), List.drop_append_of_le_length (by simp)] at h
  obtain ⟨ts, k, hts, hstart⟩ := hrereads.topicLoop n [] s
  rw [hloop] at hts
  obtain rfl : topics = ts := hts
  rw [hbody] at hstart
  have hzero := eq_zero_of_shift hpre hstart
  obtain ⟨b, hb, hb0⟩ := exists_ne_zero henc (fun h => by simp [h] at hlong) hnames
  rw [hbody] at hb
  exact hb0 (hzero b hb)

/-- A list comes back exactly if its length has one byte and its last entry more than three. -/
theorem readPack_topicsWire_iff (hread : ReadsTopics entry fixed mk) (hspec : EntrySpec entry enc valid)
    (hrereads : Rereads entry enc) (henc : ∀ t, ∃ r, enc t = putUint16 t.name.length ++ r)
    (hmid : mid < 65536) (hvalid : ∀ t ∈ topics, valid t)
    (hnames : ∀ t ∈ topics, 1 ≤ t.name.length ∧ t.name.length ≤ 65535)
    (hmax : ((topics.flatMap enc).length : ℤ) ≤ maxPackLength) :
    (∃ pack, readPack maxPackLength (topicsWire fixed mid (topics.flatMap enc)) = .ok pack [] ∧
      pack.variable_ = mk mid topics) ↔
        (topics.flatMap enc).length < 128 ∧ ∀ t ∈ topics.getLast?, 3 < (enc t).length := by
  by_cases hshort : (topics.flatMap enc).length < 128
  · rw [readPack_topicsWire_short hread hmid hshort hmax, and_iff_right hshort]
    rcases List.eq_nil_or_concat topics with rfl | ⟨init, t, rfl⟩
    · refine iff_of_true ?_ nofun
      rw [topicLoop, if_neg (by simp)]
      rfl
    · rw [List.concat_eq_append] at *
      rw [topicLoop_all hspec init t hvalid, List.getLast?_concat]
      by_cases hlong : 3 < (enc t).length
      · rw [if_pos hlong]
        refine iff_of_true rfl ?_
        rintro u ⟨⟩
        exact hlong
      · rw [if_neg hlong]
        refine iff_of_false (fun h => ?_) fun h => hlong (h t rfl)
        have hlen := congrArg List.length (Prod.mk.inj h).1
        simp at hlen
  · refine iff_of_false ?_ fun h => hshort h.1
    rintro ⟨pack, hpack, hv⟩
    exact not_readPack_topicsWire_long hread hrereads henc hnames (Nat.not_lt.mp hshort) hpack hv

end

/-! ## SUBSCRIBE and UNSUBSCRIBE -/

/-- A reader of a message id and of the topics that a loop finds. -/
theorem readsTopics_of_eq {β : Type} {entry : List UInt8 → Option (Topics × ℕ) × List UInt8} {fixed : UInt8}
    {ctor : β → Variable} {mk : ℕ → List Topics → β}
    (hread : ∀ n : ℕ, readVariable (fixed >>> 4) ((fixed &&& 15 &&& 7) >>> 1) n = ctor <$> (do
      let mid ← readInt
      let topics ← total (topicLoop entry n [])
      pure (mk mid topics)))
    (hinj : ∀ mid topics mid' topics', ctor (mk mid topics) = ctor (mk mid' topics') →
      mid = mid' ∧ topics = topics') :
    ReadsTopics entry fixed fun mid topics => ctor (mk mid topics) := by
  intro n b mid topics s'
  rw [hread, map_eq_ok]
  constructor
  · rintro ⟨v, hv, hmk⟩
    obtain ⟨mid', s, hmid, h₁⟩ := bind_eq_ok.mp hv
    obtain ⟨topics', s₁, htopics, h₂⟩ := bind_eq_ok.mp h₁
    obtain ⟨hlt, rfl⟩ := readInt_eq_ok.mp hmid
    obtain ⟨rfl, rfl⟩ := EStateM.Result.ok.inj htopics
    obtain ⟨rfl, rfl⟩ := EStateM.Result.ok.inj h₂
    obtain ⟨rfl, rfl⟩ := hinj _ _ _ _ hmk
    exact ⟨hlt, s, rfl, rfl⟩
  · rintro ⟨hlt, s, rfl, hloop⟩
    refine ⟨_, bind_eq_ok.mpr ⟨mid, s, readInt_eq_ok.mpr ⟨hlt, rfl⟩, ?_⟩, rfl⟩
    refine bind_eq_ok.mpr ⟨topics, s', ?_, rfl⟩
    rw [total, hloop]

theorem readsTopics_subscribe {fixed : UInt8} (h : fixed >>> 4 = SUBSCRIBE) :
    ReadsTopics readTopic fixed fun mid topics => .subscribe { mid, topics } := by
  refine readsTopics_of_eq (fun n => ?_) fun mid topics mid' topics' heq => ?_
  · rw [h]
    rfl
  · exact Subscribe.mk.inj (Variable.subscribe.inj heq)

theorem readsTopics_unsubscribe {fixed : UInt8} (h : fixed >>> 4 = UNSUBSCRIBE) :
    ReadsTopics readUNTopic fixed fun mid topics => .unsubscribe { mid, topics } := by
  refine readsTopics_of_eq (fun n => ?_) fun mid topics mid' topics' heq => ?_
  · rw [h]
    rfl
  · exact UNSubscribe.mk.inj (Variable.unsubscribe.inj heq)

/-- Without a panic of the encoder only the reading matters. -/
theorem comesBack_iff_of_writes {maxPackLength : ℤ} {pack : Pack} {v : Variable} {bytes : List UInt8}
    (h : Writes (delayWritePack pack) bytes) :
    ComesBack maxPackLength pack v ↔
      ∃ pack', readPack maxPackLength bytes = .ok pack' [] ∧ pack'.variable_ = v := by
  have hbytes : delayWritePack pack ⟨[], none⟩ = .ok () ⟨bytes, none⟩ := h []
  constructor
  · rintro ⟨bytes', pack', hwrite, hread⟩
    rw [hbytes] at hwrite
    obtain rfl : bytes = bytes' := congrArg Sink.out (EStateM.Result.ok.inj hwrite).2
    exact ⟨pack', hread⟩
  · rintro ⟨pack', hread⟩
    exact ⟨bytes, pack', hbytes, hread⟩

theorem not_comesBack_of_not_encodes {maxPackLength : ℤ} {pack : Pack} {v : Variable}
    (h : ¬ pack.Encodes) : ¬ ComesBack maxPackLength pack v := by
  rintro ⟨bytes, pack', hwrite, -⟩
  obtain ⟨e, w', herr⟩ := delayWritePack_error h ⟨[], none⟩
  rw [herr] at hwrite
  cases hwrite

section

variable {maxPackLength : ℤ} {dup : Fin 2} {qos : Fin 4} {mid : ℕ} {topics : List Topics}

theorem fixedByte_subscribePack : (subscribePack dup qos mid topics).fixedByte >>> 4 = SUBSCRIBE :=
  (fixedByte_shifts 8 dup qos).1

theorem fixedByte_unsubscribePack : (unsubscribePack dup qos mid topics).fixedByte >>> 4 = UNSUBSCRIBE :=
  (fixedByte_shifts 10 dup qos).1

theorem subscribe_back_iff (hmid : mid ≤ 65535)
    (hnames : ∀ t ∈ topics, 1 ≤ t.name.length ∧ t.name.length ≤ 65535)
    (hmax : ((topics.flatMap topicBytes).length : ℤ) ≤ maxPackLength) :
    ComesBack maxPackLength (subscribePack dup qos mid topics) (.subscribe { mid, topics }) ↔
      (topics.flatMap topicBytes).length < 128 := by
  by_cases hencodes : (topics.flatMap topicBytes).length < 128 ^ 4
  · have hvalid : ∀ t ∈ topics, t.name.length < 65536 := fun t ht => Nat.lt_succ_of_le (hnames t ht).2
    have hread : ReadsTopics readTopic (subscribePack dup qos mid topics).fixedByte
        fun mid topics => .subscribe { mid, topics } := readsTopics_subscribe fixedByte_subscribePack
    have hback := readPack_topicsWire_iff hread readTopic_spec readTopic_rereads (fun t => ⟨_, rfl⟩)
      (Nat.lt_succ_of_le hmid) hvalid hnames hmax
    refine (comesBack_iff_of_writes (subscribePack_writes hencodes)).trans (hback.trans ?_)
    refine and_iff_left fun t ht => ?_
    -- the QoS byte makes up for the three bytes
    have hpos := (hnames t (List.mem_of_getLast? ht)).1
    rw [topicBytes, List.length_append, List.length_append, length_putUint16, List.length_singleton]
    omega
  · refine iff_of_false (not_comesBack_of_not_encodes fun h => hencodes ?_) (by omega)
    have htnum : (Subscribe.mk mid topics).tnum < 128 ^ 4 := h
    rwa [tnum_subscribe] at htnum

theorem unsubscribe_back_iff (hmid : mid ≤ 65535)
    (hnames : ∀ t ∈ topics, 1 ≤ t.name.length ∧ t.name.length ≤ 65535)
    (hmax : ((topics.flatMap unTopicBytes).length : ℤ) ≤ maxPackLength) :
    ComesBack maxPackLength (unsubscribePack dup qos mid topics)
        (.unsubscribe { mid, topics := topics.map fun t => { name := t.name } }) ↔
      (topics.flatMap unTopicBytes).length < 128 ∧ ∀ t ∈ topics.getLast?, 2 ≤ t.name.length := by
  by_cases hencodes : (topics.flatMap unTopicBytes).length < 128 ^ 4
  · -- the QoS of a topic is not written
    have hflat : (topics.map fun t => ({ name := t.name } : Topics)).flatMap unTopicBytes
        = topics.flatMap unTopicBytes := by
      rw [List.flatMap_map]
      rfl
    have hnames' : ∀ t ∈ topics.map fun t => ({ name := t.name } : Topics),
        1 ≤ t.name.length ∧ t.name.length ≤ 65535 := by
      intro t ht
      obtain ⟨u, hu, rfl⟩ := List.mem_map.mp ht
      exact hnames u hu
    have hvalid : ∀ t ∈ topics.map fun t => ({ name := t.name } : Topics),
        t.name.length < 65536 ∧ t.qos = 0 := by
      intro t ht
      obtain ⟨u, hu, rfl⟩ := List.mem_map.mp ht
      exact ⟨Nat.lt_succ_of_le (hnames u hu).2, rfl⟩
    have hmax' := hmax
    rw [← hflat] at hmax'
    have hread : ReadsTopics readUNTopic (unsubscribePack dup qos mid topics).fixedByte
        fun mid topics => .unsubscribe { mid, topics } :=
      readsTopics_unsubscribe fixedByte_unsubscribePack
    have hback := readPack_topicsWire_iff hread readUNTopic_spec readUNTopic_rereads
      (fun t => ⟨_, rfl⟩) (Nat.lt_succ_of_le hmid) hvalid hnames' hmax'
    rw [hflat, List.getLast?_map] at hback
    refine (comesBack_iff_of_writes (unsubscribePack_writes hencodes)).trans (hback.trans ?_)
    refine and_congr_right fun _ => ?_
    cases topics.getLast? with
    | none => simp
    | some t =>
      simp only [Option.map_some, Option.mem_some_iff, forall_eq', unTopicBytes, List.length_append,
        length_putUint16]
      omega
  · refine iff_of_false (not_comesBack_of_not_encodes fun h => hencodes ?_) (by omega)
    have htnum : (UNSubscribe.mk mid topics).tnum < 128 ^ 4 := h
    rwa [tnum_unsubscribe] at htnum

/-- **Subscriptions and their way back.** For every message id, every list of names of 1 to 65535 bytes and
every limit that the declared length keeps: the SUBSCRIBE comes back exactly if its topics take less than
128 bytes, and the UNSUBSCRIBE exactly if they do and the last name has two bytes or more. -/
theorem subscription_back_iff (dup : Fin 2) (qos : Fin 4) (hmid : mid ≤ 65535)
    (hnames : ∀ t ∈ topics, 1 ≤ t.name.length ∧ t.name.length ≤ 65535) :
    (((topics.flatMap topicBytes).length : ℤ) ≤ maxPackLength →
      (ComesBack maxPackLength (subscribePack dup qos mid topics) (.subscribe { mid, topics }) ↔
        (topics.flatMap topicBytes).length < 128)) ∧
    (((topics.flatMap unTopicBytes).length : ℤ) ≤ maxPackLength →
      (ComesBack maxPackLength (unsubscribePack dup qos mid topics)
          (.unsubscribe { mid, topics := topics.map fun t => { name := t.name } }) ↔
        (topics.flatMap unTopicBytes).length < 128 ∧ ∀ t ∈ topics.getLast?, 2 ≤ t.name.length)) :=
  ⟨subscribe_back_iff hmid hnames, unsubscribe_back_iff hmid hnames⟩

theorem subscription_back_iff_two :
    (ComesBack 65535 (subscribePack 0 1 7 [⟨[97], 0⟩, ⟨[98, 99], 1⟩])
        (.subscribe ⟨7, [⟨[97], 0⟩, ⟨[98, 99], 1⟩]⟩) ↔
      ([⟨[97], 0⟩, ⟨[98, 99], 1⟩].flatMap topicBytes).length < 128) ∧
    (ComesBack 65535 (unsubscribePack 0 1 7 [⟨[97], 0⟩, ⟨[98, 99], 1⟩])
        (.unsubscribe ⟨7, [⟨[97], 0⟩, ⟨[98, 99], 0⟩]⟩) ↔
      ([⟨[97], 0⟩, ⟨[98, 99], 1⟩].flatMap unTopicBytes).length < 128 ∧
        ∀ t ∈ [(⟨[97], 0⟩ : Topics), ⟨[98, 99], 1⟩].getLast?, 2 ≤ t.name.length) := by
  have h := @subscription_back_iff 65535 7 [⟨[97], 0⟩, ⟨[98, 99], 1⟩] 0 1 (by decide) (by decide)
  exact ⟨h.1 (by decide), h.2 (by decide)⟩

/-- One name of one byte: the UNSUBSCRIBE is read without it. One name of 125 bytes: the SUBSCRIBE is read
with another length. -/
theorem subscription_lost :
    ¬ ComesBack 65535 (unsubscribePack 0 1 7 [⟨[97], 0⟩]) (.unsubscribe ⟨7, [⟨[97], 0⟩]⟩) ∧
      ¬ ComesBack 65535 (subscribePack 0 1 7 [⟨List.replicate 125 97, 0⟩])
        (.subscribe ⟨7, [⟨List.replicate 125 97, 0⟩]⟩) := by
  constructor
  · intro h
    have hlast := ((unsubscribe_back_iff (by decide) (by decide) (by decide)).mp h).2 ⟨[97], 0⟩ rfl
    exact absurd hlast (by decide)
  · intro h
    have hlong := (subscribe_back_iff (by decide) (by decide +kernel) (by decide +kernel)).mp h
    exact absurd hlong (by decide +kernel)

end

end Vmqant.Mqtt
