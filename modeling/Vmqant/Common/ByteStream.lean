import Mathlib

/-!
# Reading and writing byte streams

A `Reader` runs over the bytes that are left on a finite stream and keeps the unread rest in both
outcomes, so that a failed read is known to have consumed what it consumed. `Reads m bs a` says that
`m` takes exactly the bytes `bs` off the front of any stream and returns `a`; its rules follow the
structure of a `do` block. `bind_eq_ok`, `readByte_eq_ok` and `readFull_eq_ok` are the converse
direction: what a successful read says about the stream it started from.

A `Sink` accepts a given number of bytes and then fails for good, which covers every point at which
a buffered writer can start to fail.
-/

namespace ByteStream

/-- The errors of a read: the two end-of-stream errors of Go's `io`, and those of the format. -/
inductive ReadErr (ε : Type) where
  | eof
  | unexpectedEOF
  | custom (e : ε)
deriving DecidableEq, Repr

instance decidableEqResult {ε σ α : Type} [DecidableEq ε] [DecidableEq σ] [DecidableEq α] :
    DecidableEq (EStateM.Result ε σ α)
  | .ok a s, .ok a' s' => decidable_of_iff (a = a' ∧ s = s') (by rw [EStateM.Result.ok.injEq])
  | .error e s, .error e' s' => decidable_of_iff (e = e' ∧ s = s') (by rw [EStateM.Result.error.injEq])
  | .ok _ _, .error _ _ => isFalse nofun
  | .error _ _, .ok _ _ => isFalse nofun

/-- A reader over the unread bytes. -/
abbrev Reader (ε α : Type) := EStateM (ReadErr ε) (List UInt8) α

variable {ε α β : Type}

/-- One byte, or `io.EOF`. -/
def readByte : Reader ε UInt8
  | [] => .error .eof []
  | b :: bs => .ok b bs

/-- The buffer of `n` zero bytes after `io.ReadFull` has filled it as far as the stream goes. -/
def fillBuf (n : ℕ) (s : List UInt8) : List UInt8 :=
  s.take n ++ List.replicate (n - s.length) 0

/-- `n` bytes, or `io.EOF` on an empty and `io.ErrUnexpectedEOF` on a too short stream. -/
def readFull (n : ℕ) : Reader ε (List UInt8) := fun s =>
  if n ≤ s.length then .ok (s.take n) (s.drop n)
  else .error (if s.isEmpty then .eof else .unexpectedEOF) []

/-- A read that cannot fail. -/
def total (f : List UInt8 → α × List UInt8) : Reader ε α := fun s => .ok (f s).1 (f s).2

/-- Run `m` `n` times and collect the results. -/
def readMany (m : Reader ε α) : ℕ → Reader ε (List α)
  | 0 => pure []
  | n + 1 => do
    let a ← m
    let as ← readMany m n
    pure (a :: as)

/-- `binary.BigEndian.Uint16`. -/
def uint16 : List UInt8 → ℕ
  | hi :: lo :: _ => hi.toNat * 256 + lo.toNat
  | _ => 0

/-- The two bytes `binary.BigEndian.PutUint16` stores for `uint16(i)`. -/
def putUint16 (i : ℕ) : List UInt8 :=
  [UInt8.ofNat (i % 65536 / 256), UInt8.ofNat (i % 65536 % 256)]

theorem uint16_putUint16 {i : ℕ} (h : i < 65536) : uint16 (putUint16 i) = i := by
  simp only [uint16, putUint16, UInt8.toNat_ofNat']
  omega

theorem putUint16_uint16 (a b : UInt8) : putUint16 (uint16 [a, b]) = [a, b] := by
  have ha := a.toNat_lt
  have hb := b.toNat_lt
  have hhi : (a.toNat * 256 + b.toNat) % 65536 / 256 = a.toNat := by omega
  have hlo : (a.toNat * 256 + b.toNat) % 65536 % 256 = b.toNat := by omega
  simp only [uint16, putUint16, hhi, hlo, UInt8.ofNat_toNat]

@[simp] theorem length_putUint16 (i : ℕ) : (putUint16 i).length = 2 := rfl

theorem uint16_lt (bs : List UInt8) : uint16 bs < 65536 := by
  unfold uint16
  split
  · next hi lo _ =>
    have := hi.toNat_lt
    have := lo.toNat_lt
    omega
  · omega

/-! ## Exact consumption -/

/-- On every stream that starts with `bs`, `m` returns `a` and leaves exactly what follows `bs`. -/
def Reads (m : Reader ε α) (bs : List UInt8) (a : α) : Prop :=
  ∀ rest, m (bs ++ rest) = .ok a rest

/-- A bind runs its second reader on what the first one left. -/
theorem bind_apply (m : Reader ε α) (f : α → Reader ε β) (s : List UInt8) :
    (m >>= f) s = match m s with
      | .ok a s' => f a s'
      | .error e s' => .error e s' := by
  show EStateM.bind m f s = _
  unfold EStateM.bind
  cases m s <;> rfl

theorem pure_apply (a : α) (s : List UInt8) : (pure a : Reader ε α) s = .ok a s := rfl

theorem Reads.pure (a : α) : Reads (pure a : Reader ε α) [] a := fun _ => rfl

theorem Reads.bind {m : Reader ε α} {f : α → Reader ε β} {bs cs : List UInt8} {a : α} {b : β}
    (hm : Reads m bs a) (hf : Reads (f a) cs b) : Reads (m >>= f) (bs ++ cs) b := by
  intro rest
  rw [List.append_assoc, bind_apply, hm (cs ++ rest)]
  exact hf rest

/-- The last step of a block: a reader followed by one that takes no more bytes. -/
theorem Reads.bind_nil {m : Reader ε α} {f : α → Reader ε β} {bs : List UInt8} {a : α} {b : β}
    (hm : Reads m bs a) (hf : Reads (f a) [] b) : Reads (m >>= f) bs b := by
  have h := hm.bind hf
  rwa [List.append_nil] at h

theorem Reads.map {m : Reader ε α} {bs : List UInt8} {a : α} (f : α → β) (hm : Reads m bs a) :
    Reads (m >>= fun a => Pure.pure (f a)) bs (f a) :=
  hm.bind_nil (Reads.pure (f a))

theorem Reads.fmap {m : Reader ε α} {bs : List UInt8} {a : α} (f : α → β) (hm : Reads m bs a) :
    Reads (f <$> m) bs (f a) := by
  rw [← bind_pure_comp]
  exact hm.map f

theorem Reads.readByte (b : UInt8) : Reads (readByte : Reader ε UInt8) [b] b := fun _ => rfl

theorem Reads.readFull (bs : List UInt8) :
    Reads (readFull bs.length : Reader ε (List UInt8)) bs bs := by
  intro rest
  simp [ByteStream.readFull]

/-- Reading an encoding per element, one after another, returns the elements in order. -/
theorem Reads.readMany {γ : Type} {m : Reader ε α} {enc : γ → List UInt8} {val : γ → α}
    {xs : List γ} (h : ∀ x ∈ xs, Reads m (enc x) (val x)) :
    Reads (readMany m xs.length) (xs.flatMap enc) (xs.map val) := by
  induction xs with
  | nil => exact Reads.pure []
  | cons x xs ih =>
    have hx : Reads m (enc x) (val x) := h x (by simp)
    have hxs := ih fun y hy => h y (by simp [hy])
    rw [List.flatMap_cons]
    exact hx.bind (Reads.map (val x :: ·) hxs)

/-! ## What a successful read says -/

theorem bind_eq_ok {m : Reader ε α} {f : α → Reader ε β} {s s' : List UInt8} {b : β} :
    (m >>= f) s = .ok b s' ↔ ∃ a s₁, m s = .ok a s₁ ∧ f a s₁ = .ok b s' := by
  rw [bind_apply]
  cases h : m s with
  | ok a s₁ => simp
  | error e s₁ => simp

theorem map_eq_ok {m : Reader ε α} {f : α → β} {s s' : List UInt8} {b : β} :
    (f <$> m) s = .ok b s' ↔ ∃ a, m s = .ok a s' ∧ f a = b := by
  rw [← bind_pure_comp, bind_eq_ok]
  constructor
  · rintro ⟨a, s₁, ha, hb⟩
    obtain ⟨rfl, rfl⟩ := EStateM.Result.ok.inj hb
    exact ⟨a, ha, rfl⟩
  · rintro ⟨a, ha, rfl⟩
    exact ⟨a, s', ha, rfl⟩

/-- If `m` succeeds on `s`, it takes exactly `n` bytes. -/
def Takes (m : Reader ε α) (n : ℕ) (s : List UInt8) : Prop :=
  ∀ a s', m s = .ok a s' → ∃ bs, s = bs ++ s' ∧ bs.length = n

theorem takes_map {m : Reader ε α} (f : α → β) {n : ℕ} {s : List UInt8} :
    Takes (f <$> m) n s ↔ Takes m n s := by
  constructor
  · intro h a s' ha
    exact h (f a) s' (map_eq_ok.mpr ⟨a, ha, rfl⟩)
  · intro h b s' hb
    obtain ⟨a, ha, -⟩ := map_eq_ok.mp hb
    exact h a s' ha

theorem takes_pure {a : α} {n : ℕ} {s : List UInt8} : Takes (pure a : Reader ε α) n s ↔ n = 0 := by
  constructor
  · intro h
    obtain ⟨bs, hbs, rfl⟩ := h a s rfl
    simpa using hbs
  · rintro rfl b s' h
    obtain ⟨-, rfl⟩ := EStateM.Result.ok.inj h
    exact ⟨[], rfl, rfl⟩

theorem takes_throw {e : ReadErr ε} {n : ℕ} {s : List UInt8} :
    Takes (throw e : Reader ε α) n s := by
  rintro a s' ⟨⟩

theorem takes_bind_pure {m : Reader ε α} {f : α → β} {n : ℕ} {s : List UInt8} (h : Takes m n s) :
    Takes (m >>= fun a => pure (f a)) n s := by
  rw [bind_pure_comp]
  exact (takes_map f).mpr h

theorem readByte_eq_ok {s s' : List UInt8} {b : UInt8} :
    (readByte : Reader ε UInt8) s = .ok b s' ↔ s = b :: s' := by
  cases s with
  | nil => simp [readByte]
  | cons c cs => simp [readByte]

theorem readFull_eq_ok {n : ℕ} {s s' bs : List UInt8} :
    (readFull n : Reader ε (List UInt8)) s = .ok bs s' ↔ s = bs ++ s' ∧ bs.length = n := by
  unfold readFull
  constructor
  · intro h
    split at h
    · obtain ⟨rfl, rfl⟩ : s.take n = bs ∧ s.drop n = s' := by simpa using h
      exact ⟨(List.take_append_drop n s).symm, by simpa⟩
    · cases h
  · rintro ⟨rfl, rfl⟩
    simp

theorem takes_readFull {n : ℕ} {s : List UInt8} :
    Takes (readFull n : Reader ε (List UInt8)) n s :=
  fun bs _ h => ⟨bs, readFull_eq_ok.mp h⟩

/-- A full read fails exactly on a stream that is too short, and then empties it. -/
theorem readFull_eq_error {n : ℕ} {s s' : List UInt8} {e : ReadErr ε} :
    (readFull n : Reader ε (List UInt8)) s = .error e s' ↔
      s.length < n ∧ e = (if s.isEmpty then .eof else .unexpectedEOF) ∧ s' = [] := by
  unfold readFull
  split
  · next h => simp [Nat.not_lt.mpr h]
  · next h =>
    have hlt : s.length < n := Nat.not_le.mp h
    constructor
    · rintro ⟨⟩
      exact ⟨hlt, rfl, rfl⟩
    · rintro ⟨-, rfl, rfl⟩
      rfl

/-- A full read and the buffer it fills agree when the stream is long enough. -/
theorem fillBuf_append {bs s : List UInt8} : fillBuf bs.length (bs ++ s) = bs := by
  simp [fillBuf]

/-! ## Truncated streams -/

/-- Where `m` succeeds it has taken bytes that it takes from every stream, and without some of them it fails. -/
def Strict (m : Reader ε α) : Prop :=
  ∀ s a s', m s = .ok a s' → ∃ bs, s = bs ++ s' ∧ Reads m bs a ∧
    ∀ p, p <+: bs → p ≠ bs → ∃ e t, m p = .error e t

namespace Strict

variable {m : Reader ε α}

theorem pure (a : α) : Strict (Pure.pure a : Reader ε α) := by
  intro s b s' h
  obtain ⟨rfl, rfl⟩ := EStateM.Result.ok.inj h
  exact ⟨[], rfl, Reads.pure a, fun p hp hne => absurd (List.prefix_nil.mp hp) hne⟩

theorem throw (e : ReadErr ε) : Strict (MonadExcept.throw e : Reader ε α) := nofun

theorem readByte : Strict (ByteStream.readByte : Reader ε UInt8) := by
  intro s b s' h
  obtain rfl := readByte_eq_ok.mp h
  refine ⟨[b], rfl, Reads.readByte b, fun p hp hne => ?_⟩
  cases p with
  | nil => exact ⟨_, _, rfl⟩
  | cons c p =>
    obtain ⟨rfl, hp'⟩ := List.cons_prefix_cons.mp hp
    rw [List.prefix_nil.mp hp'] at hne
    exact absurd rfl hne

theorem readFull (n : ℕ) : Strict (ByteStream.readFull n : Reader ε (List UInt8)) := by
  intro s bs s' h
  obtain ⟨rfl, rfl⟩ := readFull_eq_ok.mp h
  refine ⟨bs, rfl, Reads.readFull bs, fun p hp hne => ?_⟩
  have hlt : p.length < bs.length :=
    lt_of_le_of_ne hp.length_le fun hlen => hne (hp.eq_of_length hlen)
  exact ⟨_, _, readFull_eq_error.mpr ⟨hlt, rfl, rfl⟩⟩

theorem bind {f : α → Reader ε β} (hm : Strict m) (hf : ∀ a, Strict (f a)) : Strict (m >>= f) := by
  intro s b s' h
  obtain ⟨a, s₁, ha, hb⟩ := bind_eq_ok.mp h
  obtain ⟨bs, rfl, hreads, hcut⟩ := hm s a s₁ ha
  obtain ⟨cs, rfl, hreads', hcut'⟩ := hf a s₁ b s' hb
  refine ⟨bs ++ cs, (List.append_assoc _ _ _).symm, hreads.bind hreads', fun p hp hne => ?_⟩
  rw [bind_apply]
  by_cases hbs : bs <+: p
  · -- the first part is complete, so the cut is in the second one
    obtain ⟨q, rfl⟩ := hbs
    have hq : q <+: cs := (List.prefix_append_right_inj bs).mp hp
    rw [hreads q]
    exact hcut' q hq fun h => hne (by rw [h])
  · have hp' : p <+: bs :=
      (List.prefix_or_prefix_of_prefix hp (List.prefix_append bs cs)).resolve_right hbs
    obtain ⟨e, t, he⟩ := hcut p hp' fun h => hbs (by rw [h])
    rw [he]
    exact ⟨e, t, rfl⟩

theorem map (f : α → β) (hm : Strict m) : Strict (f <$> m) := by
  rw [← bind_pure_comp]
  exact hm.bind fun a => pure (f a)

/-- On the beginnings of a stream that it reads, `m` succeeds as soon as its bytes are there. -/
theorem ok_iff_length (hm : Strict m) {s s' p : List UInt8} {a : α} (h : m s = .ok a s')
    (hp : p <+: s) : (∃ b t, m p = .ok b t) ↔ s.length ≤ p.length + s'.length := by
  obtain ⟨bs, rfl, hreads, hcut⟩ := hm s a s' h
  rw [List.length_append, Nat.add_le_add_iff_right]
  constructor
  · rintro ⟨b, t, hok⟩
    by_contra hlt
    have hp' : p <+: bs := List.prefix_of_prefix_length_le hp (List.prefix_append bs s') (by omega)
    obtain ⟨e, t', he⟩ := hcut p hp' fun h => hlt (by rw [h])
    rw [he] at hok
    cases hok
  · intro hle
    obtain ⟨q, rfl⟩ := List.prefix_of_prefix_length_le (List.prefix_append bs s') hp hle
    exact ⟨a, q, hreads q⟩

end Strict

/-! ## Writing -/

/-- A buffered writer: what it has accepted, and how many bytes it will accept in all. -/
structure Sink where
  out : List UInt8
  limit : Option ℕ
deriving DecidableEq, Repr

/-- A writer that fails with `ε` keeps what it had accepted before. -/
abbrev SinkM (ε α : Type) := EStateM ε Sink α

/-- Accept `bs`, or the part of it that still fits and fail with `e`. -/
def write (e : ε) (bs : List UInt8) : SinkM ε Unit := fun w =>
  match w.limit with
  | none => .ok () { w with out := w.out ++ bs }
  | some l =>
    if w.out.length + bs.length ≤ l then .ok () { w with out := w.out ++ bs }
    else .error e { w with out := w.out ++ bs.take (l - w.out.length) }

/-- The writer takes `n` more bytes. -/
def Sink.Accepts (w : Sink) (n : ℕ) : Prop := ∀ l ∈ w.limit, w.out.length + n ≤ l

theorem write_of_accepts {e : ε} {bs : List UInt8} {w : Sink} (h : w.Accepts bs.length) :
    write e bs w = .ok () { w with out := w.out ++ bs } := by
  obtain ⟨out, limit⟩ := w
  cases limit with
  | none => rfl
  | some l => exact if_pos (h l rfl)

theorem write_of_not_accepts {e : ε} {bs : List UInt8} {w : Sink} (h : ¬ w.Accepts bs.length) :
    ∃ w', write e bs w = .error e w' := by
  obtain ⟨out, limit⟩ := w
  cases limit with
  | none => exact absurd nofun h
  | some l =>
    have hl : ¬ out.length + bs.length ≤ l := by
      intro hle
      refine h fun l' hl' => ?_
      obtain rfl := Option.some.inj hl'
      exact hle
    exact ⟨_, if_neg hl⟩

/-- On every writer without a limit, `m` succeeds and appends exactly `bs`. -/
def Writes (m : SinkM ε Unit) (bs : List UInt8) : Prop :=
  ∀ out, m ⟨out, none⟩ = .ok () ⟨out ++ bs, none⟩

theorem Writes.pure : Writes (pure () : SinkM ε Unit) [] := fun out => by
  rw [List.append_nil]
  rfl

theorem Writes.write (e : ε) (bs : List UInt8) : Writes (ByteStream.write e bs) bs := fun _ => rfl

theorem Writes.bind {m n : SinkM ε Unit} {bs cs : List UInt8} (hm : Writes m bs)
    (hn : Writes n cs) : Writes (m >>= fun _ => n) (bs ++ cs) := by
  intro out
  show EStateM.bind m (fun _ => n) _ = _
  unfold EStateM.bind
  rw [hm out]
  simpa [List.append_assoc] using hn (out ++ bs)

/-- Writing one element after another appends their encodings in order. -/
theorem Writes.forM {γ : Type} {m : γ → SinkM ε Unit} {enc : γ → List UInt8} {xs : List γ}
    (h : ∀ x ∈ xs, Writes (m x) (enc x)) : Writes (xs.forM m) (xs.flatMap enc) := by
  induction xs with
  | nil => exact Writes.pure
  | cons x xs ih =>
    rw [List.flatMap_cons]
    exact (h x (by simp)).bind (ih fun y hy => h y (by simp [hy]))

end ByteStream
