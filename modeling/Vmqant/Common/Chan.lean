import Mathlib

/-!
# Buffered channels

The channels of Go: a bounded buffer and a closed flag. An operation completes, blocks, or panics; a
closed channel panics on every send and on a second close, and still gives out what is buffered.
-/

/-- A channel of capacity `n`. -/
structure Chan (α : Type) (n : ℕ) where
  buf : List α
  closed : Bool
  fits : buf.length ≤ n

namespace Chan

variable {α β : Type} {n : ℕ}

/-- How an operation ends. -/
inductive Outcome (β : Type) where
  | ok (b : β)
  | blocked
  | panic

/-- `make(chan α, n)`. -/
def make : Chan α n := ⟨[], false, Nat.zero_le n⟩

/-- `c <- a`. -/
def send (c : Chan α n) (a : α) : Outcome (Chan α n) :=
  if c.closed then .panic
  else if h : c.buf.length < n then
    .ok { c with buf := c.buf ++ [a], fits := by simpa using h }
  else .blocked

/-- `a, ok := <-c`; `none` when the channel is closed and drained. -/
def recv (c : Chan α n) : Outcome (Option α × Chan α n) :=
  match h : c.buf with
  | a :: rest =>
    .ok (some a, { c with buf := rest, fits := by have := c.fits; simp [h] at this; omega })
  | [] => if c.closed then .ok (none, c) else .blocked

/-- `close(c)` under a deferred `recover`: a second close does nothing. -/
def closeRecover (c : Chan α n) : Chan α n := { c with closed := true }

theorem send_eq_ok {c c' : Chan α n} {a : α} (h : c.send a = .ok c') :
    c.closed = false ∧ c'.buf = c.buf ++ [a] ∧ c'.closed = false := by
  unfold send at h
  by_cases hclosed : c.closed
  · rw [if_pos hclosed] at h
    cases h
  · rw [if_neg hclosed] at h
    have hopen : c.closed = false := by simpa using hclosed
    split at h
    · cases h
      exact ⟨hopen, rfl, hopen⟩
    · cases h

theorem send_eq_panic {c : Chan α n} {a : α} : c.send a = .panic ↔ c.closed = true := by
  unfold send
  split
  · next h => simp [h]
  · next h =>
    split <;> simp [h]

/-- A send on an empty channel with room does not block. -/
theorem send_of_nil {c : Chan α (n + 1)} (a : α) (hopen : c.closed = false) (hnil : c.buf = []) :
    ∃ c', c.send a = .ok c' := by
  unfold send
  rw [if_neg (by simp [hopen]), dif_pos (by simp [hnil])]
  exact ⟨_, rfl⟩

/-- What is buffered is given out. -/
theorem recv_of_ne_nil {c : Chan α n} (h : c.buf ≠ []) : ∃ a c', c.recv = .ok (some a, c') := by
  unfold recv
  split
  · exact ⟨_, _, rfl⟩
  · next hbuf => exact absurd hbuf h

theorem recv_eq_value {c c' : Chan α n} {a : α} (h : c.recv = .ok (some a, c')) :
    c.buf = a :: c'.buf ∧ c'.closed = c.closed := by
  unfold recv at h
  split at h
  · next b rest hbuf =>
    cases h
    exact ⟨hbuf, rfl⟩
  · split at h <;> cases h

theorem recv_eq_closed {c c' : Chan α n} (h : c.recv = .ok (none, c')) :
    c.buf = [] ∧ c.closed = true := by
  unfold recv at h
  split at h
  · cases h
  · next hbuf =>
    split at h
    · next hclosed => exact ⟨hbuf, hclosed⟩
    · cases h

end Chan
