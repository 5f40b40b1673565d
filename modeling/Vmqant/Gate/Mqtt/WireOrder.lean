import Vmqant.Gate.Mqtt.PackQueue

/-!
# Frames on the wire

The encoder is inside the lock, and so is the flusher. So what the connection is given, followed by what is
in the buffer and by the pieces that a call of `WritePack` has still to write, is the frames of all calls
that passed their checks, as long as no write has failed; and after that nothing is given to the connection
any more.
-/

namespace Vmqant.Mqtt.PackQueue

open Lts

variable {size : ℕ} {γ κ δ : Type} {c : Conn γ} {s s' : State size γ κ δ}

/-! ## Mutual exclusion -/

/-- Inside the lock. -/
def WritePc.Critical : WritePc → Prop
  | .locked _ | .connected _ | .noError _ | .writing _ | .wrote _ | .refused => True
  | _ => False

def FlushPc.Critical : FlushPc → Prop
  | .locked | .connected | .unlocking _ => True
  | _ => False

/-- At most one goroutine is inside the lock. -/
structure Mutex (writelock : Bool) (writer : κ → WritePc) (flusher : FlushPc) : Prop where
  held : ∀ k, (writer k).Critical → writelock = true
  flusherHeld : flusher.Critical → writelock = true
  alone : ∀ k k', (writer k).Critical → (writer k').Critical → k = k'
  apart : ∀ k, (writer k).Critical → ¬ flusher.Critical

namespace Mutex

variable {writelock : Bool} {writer : κ → WritePc} {flusher fpc : FlushPc} {k : κ} {pc : WritePc}

/-- While a call is inside the lock, another one is not in the encoder. -/
theorem not_writing (h : Mutex writelock writer flusher) (hk : (writer k).Critical) {k' : κ}
    (hne : k' ≠ k) (rest : List (List UInt8)) : writer k' ≠ .writing rest := by
  intro hk'
  exact hne (h.alone k' k (hk' ▸ trivial) hk)

/-- While the flusher is inside the lock, no call is in the encoder. -/
theorem not_writing_of_flusher (h : Mutex writelock writer flusher) (hf : flusher.Critical) (k : κ)
    (rest : List (List UInt8)) : writer k ≠ .writing rest := by
  intro hk
  exact h.apart k (hk ▸ trivial) hf

/-- The flusher moves on, and does not come in. -/
theorem setFlusher (h : Mutex writelock writer flusher) (hpc : fpc.Critical → flusher.Critical) :
    Mutex writelock writer fpc :=
  { h with
    flusherHeld := fun hf => h.flusherHeld (hpc hf)
    apart := fun k hk hf => h.apart k hk (hpc hf) }

theorem enterFlusher (h : Mutex false writer flusher) (fpc : FlushPc) : Mutex true writer fpc where
  held _ _ := rfl
  flusherHeld _ := rfl
  alone k _ hk := by cases h.held k hk
  apart k hk := by cases h.held k hk

theorem leaveFlusher (h : Mutex writelock writer flusher) (hf : flusher.Critical)
    (hpc : ¬ fpc.Critical) : Mutex false writer fpc where
  held k hk := absurd hf (h.apart k hk)
  flusherHeld hf := absurd hf hpc
  alone k _ hk := absurd hf (h.apart k hk)
  apart k hk := absurd hf (h.apart k hk)

variable [DecidableEq κ]

/-- A call moves on, and does not come in. -/
theorem setWriter (h : Mutex writelock writer flusher) (hpc : pc.Critical → (writer k).Critical) :
    Mutex writelock (Function.update writer k pc) flusher := by
  have hold : ∀ k', (Function.update writer k pc k').Critical → (writer k').Critical := by
    intro k' hk'
    rw [Function.update_apply] at hk'
    split at hk'
    · next heq =>
      rw [heq]
      exact hpc hk'
    · exact hk'
  exact
    { held := fun k' hk' => h.held k' (hold k' hk')
      flusherHeld := h.flusherHeld
      alone := fun k₁ k₂ h₁ h₂ => h.alone k₁ k₂ (hold k₁ h₁) (hold k₂ h₂)
      apart := fun k' hk' => h.apart k' (hold k' hk') }

theorem enter (h : Mutex false writer flusher) (k : κ) (pc : WritePc) :
    Mutex true (Function.update writer k pc) flusher := by
  have hnone : ∀ k', (Function.update writer k pc k').Critical → k' = k := by
    intro k' hk'
    by_contra hne
    rw [Function.update_of_ne hne] at hk'
    cases h.held k' hk'
  exact
    { held := fun _ _ => rfl
      flusherHeld := fun _ => rfl
      alone := fun k₁ k₂ h₁ h₂ => (hnone k₁ h₁).trans (hnone k₂ h₂).symm
      apart := fun _ _ hf => by cases h.flusherHeld hf }

theorem leave (h : Mutex writelock writer flusher) (hk : (writer k).Critical) (hpc : ¬ pc.Critical) :
    Mutex false (Function.update writer k pc) flusher := by
  have hnone : ∀ k', ¬ (Function.update writer k pc k').Critical := by
    intro k' hk'
    rw [Function.update_apply] at hk'
    split at hk'
    · exact hpc hk'
    · next hne => exact hne (h.alone k' k hk' hk)
  exact
    { held := fun k' hk' => absurd hk' (hnone k')
      flusherHeld := fun hf => absurd hf (h.apart k hk)
      alone := fun k₁ _ h₁ => absurd h₁ (hnone k₁)
      apart := fun k' hk' => absurd hk' (hnone k') }

end Mutex

/-! ## The stream -/

/-- The writer has `p` still to get: then the frames are complete. After an error they are not. -/
def Wire (w : BufWriter size) (frames : List (κ × List UInt8)) (p : List UInt8) : Prop :=
  (w.err = false → w.handed ++ w.buf ++ p = (frames.map Prod.snd).flatten) ∧
    (w.err = true → w.handed <+: (frames.map Prod.snd).flatten)

namespace Wire

variable {w w' : BufWriter size} {frames : List (κ × List UInt8)} {p q : List UInt8}

theorem handed_isPrefix (h : Wire w frames p) : w.handed <+: (frames.map Prod.snd).flatten := by
  cases herr : w.err with
  | true => exact h.2 herr
  | false =>
    rw [← h.1 herr, List.append_assoc]
    exact List.prefix_append _ _

theorem of_err (h : Wire w frames p) (herr : w.err = true) : Wire w frames q := by
  refine ⟨fun hok => ?_, h.2⟩
  rw [herr] at hok
  cases hok

theorem accepts (h : Wire w frames (p ++ q)) (herr : w.err = false)
    (haccepts : BufWriter.Accepts w w' p) : Wire w' frames q := by
  have hall := h.1 herr
  rw [← List.append_assoc] at hall
  rcases haccepts with ⟨herr', heq⟩ | ⟨herr', hstarts⟩
  · refine ⟨fun _ => ?_, fun h' => ?_⟩
    · rw [heq, hall]
    · rw [herr'] at h'
      cases h'
  · refine ⟨fun h' => ?_, fun _ => ?_⟩
    · rw [herr'] at h'
      cases h'
    · rw [← hall]
      exact hstarts.trans (List.prefix_append _ _)

theorem write (h : Wire w frames (p ++ q)) (c : Conn γ) (g : γ) :
    Wire (w.write c g p).1 frames q := by
  cases herr : w.err with
  | true =>
    rw [BufWriter.write_err c g p herr]
    exact h.of_err herr
  | false => exact h.accepts herr (BufWriter.write_accepts c g p herr)

theorem flush (h : Wire w frames []) (c : Conn γ) (g : γ) : Wire (w.flush c g).1 frames [] := by
  cases herr : w.err with
  | true =>
    rw [BufWriter.flush_err c g herr]
    exact h
  | false => exact accepts (p := []) h herr (BufWriter.flush_accepts c g herr)

/-- The frame of one more call. -/
theorem append (h : Wire w frames []) (k : κ) (p : List UInt8) : Wire w (frames ++ [(k, p)]) p := by
  have hflatten : ((frames ++ [(k, p)]).map Prod.snd).flatten = (frames.map Prod.snd).flatten ++ p := by
    simp
  rw [Wire, hflatten]
  refine ⟨fun herr => ?_, fun herr => (h.2 herr).trans (List.prefix_append _ _)⟩
  rw [← h.1 herr, List.append_nil]

end Wire

/-- What a call has still to write. -/
def WritePc.left : WritePc → List UInt8
  | .writing rest => rest.flatten
  | _ => []

/-- The writer is in the middle of the frame of the call that is in the encoder, or between frames. -/
structure Stream (w : BufWriter size) (frames : List (κ × List UInt8)) (writer : κ → WritePc) : Prop
    where
  writing : ∀ k rest, writer k = .writing rest → Wire w frames rest.flatten
  quiet : (∀ k rest, writer k ≠ .writing rest) → Wire w frames []

namespace Stream

variable {w w' : BufWriter size} {frames frames' : List (κ × List UInt8)} {writer : κ → WritePc}
  {k : κ} {pc : WritePc}

variable [DecidableEq κ]

/-- A call moves on outside the encoder. -/
theorem move (h : Stream w frames writer) (hfrom : ∀ rest, writer k ≠ .writing rest)
    (hpc : ∀ rest, pc ≠ .writing rest) : Stream w frames (Function.update writer k pc) := by
  refine ⟨fun k' rest hk' => ?_, fun hnone => h.quiet fun k' rest hk' => ?_⟩
  · rw [Function.update_apply] at hk'
    split at hk'
    · exact absurd hk' (hpc rest)
    · exact h.writing k' rest hk'
  · refine hnone k' rest ?_
    rw [Function.update_of_ne]
    · exact hk'
    · rintro rfl
      exact hfrom rest hk'

/-- A call moves on, and no other one is in the encoder. -/
theorem set (halone : ∀ k' rest, k' ≠ k → writer k' ≠ .writing rest) (h : Wire w frames pc.left) :
    Stream w frames (Function.update writer k pc) := by
  refine ⟨fun k' rest hk' => ?_, fun hnone => ?_⟩
  · rw [Function.update_apply] at hk'
    split at hk'
    · rw [hk'] at h
      exact h
    · next hne => exact absurd hk' (halone k' rest hne)
  · have hpc := hnone k
    rw [Function.update_self] at hpc
    cases pc with
    | writing rest => exact absurd rfl (hpc rest)
    | _ => exact h

end Stream

/-! ## The order of the calls -/

/-- Inside the lock, before the checks are passed. -/
def WritePc.Checking : WritePc → Prop
  | .locked _ | .connected _ | .noError _ => True
  | _ => False

theorem WritePc.Checking.critical {pc : WritePc} (h : pc.Checking) : pc.Critical := by
  cases pc with
  | locked p | connected p | noError p => trivial
  | _ => exact h.elim

/-- The calls that have passed their checks are in the order of the lock; the one that is being checked is
the last that has had the lock. -/
structure Ordered (acquired : List κ) (frames : List (κ × List UInt8)) (writer : κ → WritePc) : Prop
    where
  sublist : (frames.map Prod.fst).Sublist acquired
  last : ∀ k, (writer k).Checking →
    ∃ before, acquired = before ++ [k] ∧ (frames.map Prod.fst).Sublist before

namespace Ordered

variable {acquired : List κ} {frames : List (κ × List UInt8)} {writer : κ → WritePc} {k : κ}
  {pc : WritePc} [DecidableEq κ]

/-- A call moves on without passing its checks. -/
theorem move (h : Ordered acquired frames writer) (hpc : pc.Checking → (writer k).Checking) :
    Ordered acquired frames (Function.update writer k pc) := by
  refine ⟨h.sublist, fun k' hk' => h.last k' ?_⟩
  rw [Function.update_apply] at hk'
  split at hk'
  · next heq =>
    rw [heq]
    exact hpc hk'
  · exact hk'

/-- A call gets the lock. -/
theorem lock (h : Ordered acquired frames writer) (hnone : ∀ k, ¬ (writer k).Checking) :
    Ordered (acquired ++ [k]) frames (Function.update writer k pc) := by
  refine ⟨h.sublist.trans (List.sublist_append_left _ _), fun k' hk' => ?_⟩
  rw [Function.update_apply] at hk'
  split at hk'
  · next heq => exact ⟨acquired, by rw [heq], h.sublist⟩
  · exact absurd hk' (hnone k')

/-- A call passes its checks. -/
theorem pass (h : Ordered acquired frames writer) (hk : (writer k).Checking)
    (halone : ∀ k', (writer k').Checking → k' = k) (hpc : ¬ pc.Checking) (p : List UInt8) :
    Ordered acquired (frames ++ [(k, p)]) (Function.update writer k pc) := by
  refine ⟨?_, fun k' hk' => ?_⟩
  · obtain ⟨before, rfl, hbefore⟩ := h.last k hk
    rw [List.map_append]
    exact hbefore.append (List.Sublist.refl _)
  · rw [Function.update_apply] at hk'
    split at hk'
    · exact absurd hk' hpc
    · next hne => exact absurd (halone k' hk') hne

end Ordered

/-! ## Every run -/

/-- The invariant of the queue. -/
structure Inv (s : State size γ κ δ) : Prop where
  mutex : Mutex s.writelock s.writer s.flusher
  stream : Stream s.w s.frames s.writer
  ordered : Ordered s.acquired s.frames s.writer
  frames : ∀ f ∈ s.frames, IsFrame f.2

theorem inv_init (g : γ) : Inv (State.init g : State size γ κ δ) where
  mutex :=
    { held := fun _ h => h.elim
      flusherHeld := fun h => h.elim
      alone := fun _ _ h => h.elim
      apart := fun _ h => h.elim }
  stream :=
    { writing := fun _ _ h => by cases h
      quiet := fun _ => ⟨fun _ => rfl, fun h => by cases h⟩ }
  ordered := ⟨List.Sublist.refl _, fun _ h => h.elim⟩
  frames f h := by cases h

namespace Inv

/-- `Close` touches none of this. -/
theorem closeStep {pc pc' : ClosePc} (hs : Inv s) (h : CloseStep c s pc pc' s') :
    Inv s' ∧ s'.writer = s.writer := by
  cases h with
  | setError err => exact ⟨{ hs with }, rfl⟩
  | closeFch => exact ⟨{ hs with }, rfl⟩
  | setStatus => exact ⟨{ hs with }, rfl⟩
  | closeConn => exact ⟨{ hs with }, rfl⟩

theorem flushStep (hs : Inv s) (h : FlushStep c s s.flusher s') : Inv s' := by
  generalize hpc : s.flusher = pc at h
  have hmutex := hs.mutex
  rw [hpc] at hmutex
  cases h with
  | disconnected hstatus => exact { hs with mutex := hmutex.setFlusher id }
  | wait hstatus => exact { hs with mutex := hmutex.setFlusher id }
  | receive hrecv => exact { hs with mutex := hmutex.setFlusher id }
  | closed hclosed => exact { hs with mutex := hmutex.setFlusher id }
  | lock hfree =>
    rw [hfree] at hmutex
    exact { hs with mutex := hmutex.enterFlusher _ }
  | leave hstatus => exact { hs with mutex := hmutex.setFlusher id }
  | connected hstatus => exact { hs with mutex := hmutex.setFlusher id }
  | empty hbuf => exact { hs with mutex := hmutex.setFlusher id }
  | @flush w' g' hflush =>
    have hnone := hmutex.not_writing_of_flusher trivial
    have hwire := (hs.stream.quiet hnone).flush c s.conn
    rw [hflush] at hwire
    exact
      { hs with
        mutex := hmutex.setFlusher fun _ => trivial
        stream := ⟨fun k rest hk => absurd hk (hnone k rest), fun _ => hwire⟩ }
  | unlock stop =>
    refine { hs with mutex := hmutex.leaveFlusher trivial ?_ }
    cases stop <;> exact id

variable [DecidableEq κ] {k : κ}

/-- A call moves on outside the encoder, and does not come into the lock. -/
theorem move (hs : Inv s) {pc pc' : WritePc} (hk : s.writer k = pc)
    (hfrom : ∀ rest, pc ≠ .writing rest) (hpc : ∀ rest, pc' ≠ .writing rest)
    (hcritical : pc'.Critical → pc.Critical) (hchecking : pc'.Checking → pc.Checking) :
    Inv (s.setWriter k pc') := by
  subst hk
  exact
    { hs with
      mutex := hs.mutex.setWriter hcritical
      stream := hs.stream.move hfrom hpc
      ordered := hs.ordered.move hchecking }

/-- A call leaves the lock. -/
theorem leave (hs : Inv s) {pc pc' : WritePc} (hk : s.writer k = pc) (hfrom : pc.Critical)
    (hwriting : ∀ rest, pc ≠ .writing rest) (hpc : ¬ pc'.Critical) :
    Inv { s.setWriter k pc' with writelock := false } := by
  subst hk
  have hpc' : ∀ rest, pc' ≠ .writing rest := by
    rintro rest rfl
    exact hpc trivial
  exact
    { hs with
      mutex := hs.mutex.leave hfrom hpc
      stream := hs.stream.move hwriting hpc'
      ordered := hs.ordered.move fun h => absurd h.critical hpc }

/-- A call moves on in the encoder, or out of it. -/
theorem encode (hs : Inv s) {pc pc' : WritePc} (hk : s.writer k = pc) (hfrom : pc.Critical)
    (hchecking : ¬ pc'.Checking) {w' : BufWriter size} {g' : γ} (hwire : Wire w' s.frames pc'.left) :
    Inv { s.setWriter k pc' with w := w', conn := g' } := by
  subst hk
  exact
    { hs with
      mutex := hs.mutex.setWriter fun _ => hfrom
      stream := Stream.set (fun _ rest hne => hs.mutex.not_writing hfrom hne rest) hwire
      ordered := hs.ordered.move fun h => absurd h hchecking }

/-- A call passes its checks. -/
theorem begin (hs : Inv s) {p : SendPack} (hk : s.writer k = .noError p) :
    Inv { s.setWriter k (.writing p.pack.pieces) with
      frames := s.frames ++ [(k, p.pack.pieces.flatten)] } := by
  have hcritical : (s.writer k).Critical := hk ▸ trivial
  have hchecking : (s.writer k).Checking := hk ▸ trivial
  -- nobody else is in the encoder, or about to pass
  have halone : ∀ k' rest, k' ≠ k → s.writer k' ≠ .writing rest := fun _ rest hne =>
    hs.mutex.not_writing hcritical hne rest
  have hquiet : ∀ k' rest, s.writer k' ≠ .writing rest := by
    intro k' rest hk'
    by_cases heq : k' = k
    · rw [heq, hk] at hk'
      cases hk'
    · exact halone k' rest heq hk'
  exact
    { mutex := hs.mutex.setWriter fun _ => hcritical
      stream := Stream.set halone ((hs.stream.quiet hquiet).append k _)
      ordered := hs.ordered.pass hchecking
        (fun k' hk' => hs.mutex.alone k' k hk'.critical hcritical) id _
      frames := fun f hf => by
        rcases List.mem_append.mp hf with hf | hf
        · exact hs.frames f hf
        · rw [List.mem_singleton.mp hf]
          exact isFrame_pieces p.small }

theorem writeStep (hs : Inv s) (h : WriteStep c s k (s.writer k) s') : Inv s' := by
  generalize hpc : s.writer k = pc at h
  cases h with
  | call p => exact hs.move hpc (by simp) (by simp) id id
  | lock p hfree =>
    have hmutex := hs.mutex
    rw [hfree] at hmutex
    have hnone : ∀ k', ¬ (s.writer k').Checking := by
      intro k' hk'
      cases hmutex.held k' hk'.critical
    exact
      { hs with
        mutex := hmutex.enter k _
        stream := hs.stream.move (by simp [hpc]) (by simp)
        ordered := hs.ordered.lock hnone }
  | disconnected p hstatus => exact hs.move hpc (by simp) (by simp) id (fun _ => trivial)
  | connected p hstatus => exact hs.move hpc (by simp) (by simp) id id
  | error p herr => exact hs.move hpc (by simp) (by simp) id (fun _ => trivial)
  | noError p herr => exact hs.move hpc (by simp) (by simp) id id
  | full p hfull => exact hs.move hpc (by simp) (by simp) id (fun _ => trivial)
  | begin p hroom => exact hs.begin hpc
  | finish =>
    have hwire : Wire s.w s.frames [] := hs.stream.writing k [] hpc
    have hs' : Inv { s.setWriter k (.wrote false) with w := s.w, conn := s.conn } :=
      hs.encode hpc trivial id hwire
    exact { hs' with }
  | skip rest =>
    have hwire : Wire s.w s.frames rest.flatten := hs.stream.writing k ([] :: rest) hpc
    have hs' : Inv { s.setWriter k (.writing rest) with w := s.w, conn := s.conn } :=
      hs.encode hpc trivial id hwire
    exact { hs' with }
  | write b rest hwrite herr =>
    have hwire := (hs.stream.writing k (b :: rest) hpc).write c s.conn
    rw [hwrite] at hwire
    exact hs.encode hpc trivial id hwire
  | fail b rest hwrite herr =>
    have hwire := (hs.stream.writing k (b :: rest) hpc).write c s.conn
    rw [hwrite] at hwire
    exact hs.encode hpc trivial id (hwire.of_err herr)
  | unlock failed => exact hs.leave hpc trivial (by simp) id
  | leave => exact hs.leave hpc trivial (by simp) id
  | panic failed hclosed => exact hs.move hpc (by simp) (by simp) id id
  | send failed hsend =>
    have hs' : Inv (s.setWriter k (if failed then .closing (.setError true) else .returned)) := by
      cases failed <;> exact hs.move hpc (by simp) (by simp) id id
    exact { hs' with }
  | close hclose hwpc =>
    obtain ⟨hs', hwriter⟩ := hs.closeStep hclose
    rw [← hwriter] at hpc
    rcases hwpc with rfl | rfl <;> exact hs'.move hpc (by simp) (by simp) id id

variable [DecidableEq δ]

theorem step {a : Act κ δ} (hs : Inv s) (h : step c s a = some s') : Inv s' := by
  cases a with
  | writer k a => exact hs.writeStep (writeStep_eq_some h)
  | flusher a => exact hs.flushStep (flushStep_eq_some h)
  | closer d a =>
    cases a with
    | call err =>
      unfold PackQueue.step at h
      dsimp only at h
      split at h
      · obtain rfl := Option.some.inj h
        exact { hs with }
      · cases h
    | next =>
      obtain ⟨⟨pc', s₁⟩, hclose, rfl⟩ := Option.map_eq_some_iff.mp h
      obtain ⟨hs', -⟩ := hs.closeStep (closeStep_eq_some hclose)
      exact { hs' with }

end Inv

/-- After an error the connection is given nothing any more. -/
theorem handed_of_err [DecidableEq κ] [DecidableEq δ] {a : Act κ δ} (herr : s.w.err = true)
    (h : step c s a = some s') : s'.w = s.w := by
  cases a with
  | writer k a =>
    change writeStep c s k (s.writer k) a = some s' at h
    generalize s.writer k = pc at h
    cases writeStep_eq_some h with
    | write b rest hwrite _ | fail b rest hwrite _ =>
      rw [BufWriter.write_err c s.conn b herr] at hwrite
      cases hwrite
      rfl
    | close hclose hwpc => cases hclose <;> rfl
    | _ => rfl
  | flusher a =>
    change flushStep c s s.flusher a = some s' at h
    generalize s.flusher = pc at h
    cases flushStep_eq_some h with
    | flush hflush =>
      rw [BufWriter.flush_err c s.conn herr] at hflush
      cases hflush
      rfl
    | _ => rfl
  | closer d a =>
    cases a with
    | call err =>
      unfold step at h
      dsimp only at h
      split at h
      · obtain rfl := Option.some.inj h
        rfl
      · cases h
    | next =>
      obtain ⟨⟨pc', s₁⟩, hclose, rfl⟩ := Option.map_eq_some_iff.mp h
      generalize s.closer d = pc at hclose
      cases closeStep_eq_some hclose <;> rfl

/-- A connection that takes everything. -/
def sampleConn : Conn Unit := ⟨fun _ _ => (none, ()), id⟩

def samplePack (mid : ℕ) : SendPack where
  pack := getPubAckPack mid
  made := .pubAck mid
  small := by
    have hlen : (getPubAckPack mid).bodyLength = 2 := rfl
    rw [hlen]
    decide

/-- Two calls, with a buffer of three bytes. The second one waits for the lock and is then refused because
the queue is being closed. -/
def sampleRun : List (Act Bool Unit) :=
  [.writer true (.call (samplePack 1)), .writer false (.call (samplePack 2)), .writer true .lock,
    .writer true .check, .writer true .check, .writer true .check, .writer true .write,
    .writer true .write, .closer () (.call true), .writer true .write, .closer () .next,
    .writer true .write, .writer true .unlock, .writer false .lock, .writer false .check,
    .writer false .check, .writer false .unlock]

end Vmqant.Mqtt.PackQueue
