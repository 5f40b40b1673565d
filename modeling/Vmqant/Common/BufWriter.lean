import Mathlib

/-!
# Buffered writers

The `bufio.Writer` of Go over a connection. `Write` fills the buffer and flushes it when the bytes do not
fit, or hands them to the connection directly when the buffer is empty; after an error of the connection
nothing is accepted any more. `Accepts` says what a call does to the stream of bytes: those that were
handed to the connection, followed by those in the buffer.
-/

/-- A connection with the states `γ`. `write` takes all bytes, or as many as it says and then fails. -/
structure Conn (γ : Type) where
  write : γ → List UInt8 → Option ℕ × γ
  close : γ → γ

/-- A writer with a buffer of `size` bytes. -/
structure BufWriter (size : ℕ) where
  buf : List UInt8
  err : Bool
  /-- All bytes that were given to the `Write` of the connection. -/
  handed : List UInt8
  fits : buf.length ≤ size

namespace BufWriter

variable {γ : Type} {size : ℕ} {w w₁ w₂ : BufWriter size} {p q : List UInt8}

/-- `bufio.NewWriterSize`. -/
def new : BufWriter size := ⟨[], false, [], Nat.zero_le size⟩

def available (w : BufWriter size) : ℕ := size - w.buf.length

/-- `Flush`. What the connection did not take stays in the buffer. -/
def flush (c : Conn γ) (w : BufWriter size) (g : γ) : BufWriter size × γ :=
  if w.err || w.buf.isEmpty then (w, g)
  else
    match c.write g w.buf with
    | (none, g') => ({ w with buf := [], handed := w.handed ++ w.buf, fits := Nat.zero_le size }, g')
    | (some n, g') =>
      ({ buf := w.buf.drop n
         err := true
         handed := w.handed ++ w.buf
         fits := by
           have hfits := w.fits
           rw [List.length_drop]
           omega }, g')

/-- A `Write` to the connection past the empty buffer. -/
def writeThrough (c : Conn γ) (w : BufWriter size) (g : γ) (p : List UInt8) : BufWriter size × γ :=
  match c.write g p with
  | (none, g') => ({ w with handed := w.handed ++ p }, g')
  | (some _, g') => ({ w with handed := w.handed ++ p, err := true }, g')

/-- A `Write` when the buffer is empty. -/
def writeEmpty (c : Conn γ) (w : BufWriter size) (g : γ) (p : List UInt8) : BufWriter size × γ :=
  if h : p.length ≤ size then ({ w with buf := p, fits := h }, g) else writeThrough c w g p

/-- The buffer is filled with the beginning of `p`. -/
def fill (w : BufWriter size) (p : List UInt8) : BufWriter size :=
  { w with
    buf := w.buf ++ p.take w.available
    fits := by
      have hfits := w.fits
      rw [List.length_append, List.length_take, available]
      omega }

/-- `Write`. The loop is run at most twice: when the bytes do not fit, the buffer is filled and flushed,
and then it is empty. `WriteByte` is the same with one byte. -/
def write (c : Conn γ) (w : BufWriter size) (g : γ) (p : List UInt8) : BufWriter size × γ :=
  if w.err then (w, g)
  else if h : w.buf.length + p.length ≤ size then
    ({ w with buf := w.buf ++ p, fits := by rwa [List.length_append] }, g)
  else if w.buf.isEmpty then writeEmpty c w g p
  else
    let (w', g') := flush c (w.fill p) g
    if w'.err then (w', g') else writeEmpty c w' g' (p.drop w.available)

/-! ## What the calls accept -/

/-- The call took `p`, or it failed, and what was handed over is the beginning of the stream. -/
def Accepts (w w' : BufWriter size) (p : List UInt8) : Prop :=
  (w'.err = false ∧ w'.handed ++ w'.buf = w.handed ++ w.buf ++ p) ∨
    (w'.err = true ∧ w'.handed <+: w.handed ++ w.buf ++ p)

theorem Accepts.trans (h₁ : Accepts w w₁ p) (herr : w₁.err = false) (h₂ : Accepts w₁ w₂ q) :
    Accepts w w₂ (p ++ q) := by
  rcases h₁ with ⟨-, h₁⟩ | ⟨h, -⟩
  · rw [Accepts, h₁, List.append_assoc _ p q] at h₂
    exact h₂
  · rw [herr] at h
    cases h

theorem flush_err (c : Conn γ) (g : γ) (h : w.err = true) : flush c w g = (w, g) := by
  rw [flush, h, Bool.true_or, if_pos rfl]

theorem write_err (c : Conn γ) (g : γ) (p : List UInt8) (h : w.err = true) : write c w g p = (w, g) := by
  rw [write, h, if_pos rfl]

/-- An error is kept by a flush. -/
theorem err_of_flush {c : Conn γ} {g g' : γ} (h : flush c w g = (w₁, g')) (herr : w.err = true) :
    w₁.err = true := by
  rw [flush_err c g herr] at h
  cases h
  exact herr

/-- An error is kept by a write. -/
theorem err_of_write {c : Conn γ} {g g' : γ} (h : write c w g p = (w₁, g'))
    (herr : w.err = true) : w₁.err = true := by
  rw [write_err c g p herr] at h
  cases h
  exact herr

theorem flush_accepts (c : Conn γ) (g : γ) (herr : w.err = false) : Accepts w (flush c w g).1 [] := by
  rw [flush, herr, Bool.false_or]
  split
  · exact .inl ⟨herr, (List.append_nil _).symm⟩
  · split
    · exact .inl ⟨rfl, by simp⟩
    · exact .inr ⟨rfl, by simp⟩

/-- After a flush without error the buffer is empty. -/
theorem flush_buf (c : Conn γ) (g : γ) (herr : (flush c w g).1.err = false) :
    (flush c w g).1.buf = [] := by
  unfold flush at herr ⊢
  split at herr
  · next h =>
    rw [if_pos h]
    have hbuf : w.buf.isEmpty = true := by simpa [show w.err = false from herr] using h
    exact List.isEmpty_iff.mp hbuf
  · next h =>
    rw [if_neg h]
    split at herr
    · rfl
    · cases herr

theorem writeThrough_accepts (c : Conn γ) (g : γ) (p : List UInt8) (herr : w.err = false)
    (hbuf : w.buf = []) : Accepts w (writeThrough c w g p).1 p := by
  unfold writeThrough
  split
  · exact .inl ⟨herr, by simp [hbuf]⟩
  · exact .inr ⟨rfl, by simp [hbuf]⟩

theorem writeEmpty_accepts (c : Conn γ) (g : γ) (p : List UInt8) (herr : w.err = false)
    (hbuf : w.buf = []) : Accepts w (writeEmpty c w g p).1 p := by
  unfold writeEmpty
  split
  · exact .inl ⟨herr, by simp [hbuf]⟩
  · exact writeThrough_accepts c g p herr hbuf

theorem flush_fill_accepts (c : Conn γ) (g : γ) (p : List UInt8) (herr : w.err = false) :
    Accepts w (flush c (w.fill p) g).1 (p.take w.available) := by
  have h := flush_accepts (w := w.fill p) c g herr
  rw [Accepts, List.append_nil, show (w.fill p).handed = w.handed from rfl,
    show (w.fill p).buf = w.buf ++ p.take w.available from rfl, ← List.append_assoc] at h
  exact h

theorem write_accepts (c : Conn γ) (g : γ) (p : List UInt8) (herr : w.err = false) :
    Accepts w (write c w g p).1 p := by
  rw [write, if_neg (by simp [herr])]
  split
  · exact .inl ⟨herr, (List.append_assoc _ _ _).symm⟩
  · split
    · next hbuf => exact writeEmpty_accepts c g p herr (List.isEmpty_iff.mp hbuf)
    · have hfill := flush_fill_accepts c g p herr
      have htake : p.take w.available ++ p.drop w.available = p := List.take_append_drop _ _
      dsimp only
      split
      · next herr' =>
        rcases hfill with ⟨h, -⟩ | ⟨-, h⟩
        · rw [herr'] at h
          cases h
        · refine .inr ⟨herr', h.trans ?_⟩
          exact ⟨p.drop w.available, by rw [List.append_assoc, htake]⟩
      · next herr' =>
        have hok := Bool.eq_false_of_not_eq_true herr'
        have h := hfill.trans hok
          (writeEmpty_accepts c (flush c (w.fill p) g).2 (p.drop w.available) hok (flush_buf c g hok))
        rwa [htake] at h

end BufWriter
