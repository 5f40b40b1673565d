import Vmqant.Common.GoInt
import Vmqant.Timer.TimingWheel

/-!
# The position of a task in machine integers

Reference: `module/modules/timer/timingwheel.go`, lines 53-72, 109-122, 132-140 and 177-200.

`New` takes any positive duration for the interval, in nanoseconds, and `getPositionAndCircle` divides by its
milliseconds. An `int` has 64 bits here, and a slice of so many lists fits into memory. With the interval a
millisecond or more this is the wheel of `TimingWheel`, whose numbers are natural ones.
-/

namespace Vmqant.Timer

open GoInt

/-- The numbers of a `TimeWheel`. -/
structure Wheel where
  interval : Int64
  slotNum : Int64
  currentPos : Int64

namespace Wheel

/-- The bytes that may be allocated at once on a platform of 64 bits. -/
def maxAlloc : ℤ := 281474976710656

/-- `New`; `make` panics for more slots than fit into memory, each a pointer. -/
def new (interval slotNum : Int64) : Except PanicValue (Option Wheel) :=
  if interval ≤ 0 ∨ slotNum ≤ 0 then pure none
  else if maxAlloc < 8 * slotNum.toInt then throw (.error "runtime error: makeslice: len out of range")
  else pure (some ⟨interval, slotNum, 0⟩)

/-- `tickHandler` moves the pointer. -/
def tick (tw : Wheel) : Wheel :=
  if tw.currentPos = tw.slotNum - 1 then { tw with currentPos := 0 }
  else { tw with currentPos := tw.currentPos + 1 }

def getPositionAndCircle (tw : Wheel) (d : Int64) : Except PanicValue (Int64 × Int64) := do
  let delayMillisecond := d / 1000000
  let intervalMillisecond := tw.interval / 1000000
  let circle ← quo (← quo delayMillisecond intervalMillisecond) tw.slotNum
  let pos ← rem (tw.currentPos + (← quo delayMillisecond intervalMillisecond)) tw.slotNum
  pure (pos, circle)

/-- `tw.slots[pos]`. -/
def indexSlots (tw : Wheel) (pos : Int64) : Except PanicValue Unit :=
  if 0 ≤ pos ∧ pos < tw.slotNum then pure ()
  else throw (.error s!"runtime error: index out of range [{pos}]")

/-- What `addTask` does with the delay of a task. -/
def addTask (tw : Wheel) (delay : Int64) : Except PanicValue (Int64 × Int64) := do
  let (pos, circle) ← tw.getPositionAndCircle delay
  tw.indexSlots pos
  pure (pos, circle)

/-- `AddTimer` and `AddTimerCustom`, which send no task without a delay. -/
def addTimer (tw : Wheel) (delay : Int64) : Except PanicValue (Option (Int64 × Int64)) :=
  if delay ≤ 0 then pure none
  else do pure (some (← tw.addTask delay))

/-! ## The wheel in natural numbers -/

/-- A wheel with the interval `i` and `n` slots, the pointer at `p`. -/
structure Has (tw : Wheel) (i n p : ℕ) : Prop where
  interval : IsNat tw.interval i
  slotNum : IsNat tw.slotNum n
  currentPos : IsNat tw.currentPos p
  interval_pos : 0 < i
  pos_lt : p < n
  fits : 8 * n ≤ 281474976710656

variable {tw : Wheel} {i n p k : ℕ}

theorem has_new {interval slotNum : Int64} (hnew : new interval slotNum = .ok (some tw)) :
    tw = ⟨interval, slotNum, 0⟩ ∧ tw.Has interval.toInt.toNat slotNum.toInt.toNat 0 := by
  unfold new at hnew
  split at hnew
  · cases hnew
  · next hpos =>
    obtain ⟨hi, hn⟩ := not_or.mp hpos
    rw [Int64.le_iff_toInt_le, Int64.toInt_zero, not_le] at hi hn
    split at hnew
    · cases hnew
    · next hfit =>
      cases hnew
      unfold maxAlloc at hfit
      refine ⟨rfl, ?_, ?_, isNat_zero, ?_, ?_, ?_⟩
      · exact (Int.toNat_of_nonneg hi.le).symm
      · exact (Int.toNat_of_nonneg hn.le).symm
      · omega
      · omega
      · omega

/-- The pointer stays on the wheel. -/
theorem Has.tick (h : tw.Has i n p) : tw.tick.Has i n (if p = n - 1 then 0 else p + 1) := by
  have hn : 0 < n := Nat.zero_lt_of_lt h.pos_lt
  have hlast : IsNat (tw.slotNum - 1) (n - 1) := h.slotNum.sub (k := 1) rfl hn
  have hp := h.pos_lt
  have hfits := h.fits
  unfold Wheel.tick
  by_cases heq : p = n - 1
  · rw [if_pos ((h.currentPos.eq_iff hlast).mpr heq), if_pos heq]
    exact ⟨h.interval, h.slotNum, isNat_zero, h.interval_pos, hn, hfits⟩
  · rw [if_neg ((h.currentPos.eq_iff hlast).not.mpr heq), if_neg heq]
    exact ⟨h.interval, h.slotNum, h.currentPos.add (k := 1) rfl (by omega), h.interval_pos, by omega, hfits⟩

theorem has_iterate_tick (h : tw.Has i n p) (ticks : ℕ) : ∃ p', (tick^[ticks] tw).Has i n p' := by
  induction ticks generalizing tw p with
  | zero => exact ⟨p, h⟩
  | succ ticks ih => exact ih h.tick

theorem slotNum_iterate_tick (tw : Wheel) (ticks : ℕ) : (tick^[ticks] tw).slotNum = tw.slotNum := by
  induction ticks generalizing tw with
  | zero => rfl
  | succ ticks ih =>
    have htick : tw.tick.slotNum = tw.slotNum := by
      unfold tick
      split <;> rfl
    exact (ih tw.tick).trans htick

/-! ## The arithmetic -/

theorem isNat_million : IsNat 1000000 1000000 := rfl

/-- The interval is less than a millisecond. -/
theorem getPositionAndCircle_error (h : tw.Has i n p) (hi : i / 1000000 = 0) (d : Int64) :
    tw.getPositionAndCircle d = .error .divideByZero := by
  have hzero : IsNat (tw.interval / 1000000) 0 := hi ▸ h.interval.div isNat_million
  unfold getPositionAndCircle
  dsimp only
  rw [hzero.quo_zero]
  rfl

/-- Otherwise nothing overflows, and no divisor is zero. -/
theorem getPositionAndCircle_ok (h : tw.Has i n p) (hi : i / 1000000 ≠ 0) {d : Int64} (hd : IsNat d k) :
    ∃ pos circle, tw.getPositionAndCircle d = .ok (pos, circle) ∧
      IsNat pos ((p + k / 1000000 / (i / 1000000)) % n) ∧
      IsNat circle (k / 1000000 / (i / 1000000) / n) := by
  have hn : n ≠ 0 := (Nat.zero_lt_of_lt h.pos_lt).ne'
  have hk : k < 2 ^ 63 := by
    have hlt := d.toInt_lt
    rw [hd] at hlt
    exact_mod_cast hlt
  have hq : k / 1000000 / (i / 1000000) ≤ k / 1000000 := Nat.div_le_self _ _
  have hsum : p + k / 1000000 / (i / 1000000) < 2 ^ 63 := by
    have hp := h.pos_lt
    have hfits := h.fits
    omega
  obtain ⟨q, hquo, hqnat⟩ := (hd.div isNat_million).quo (h.interval.div isNat_million) hi
  obtain ⟨circle, hcircle, hcnat⟩ := hqnat.quo h.slotNum hn
  obtain ⟨pos, hpos, hpnat⟩ := (h.currentPos.add hqnat hsum).rem h.slotNum hn
  refine ⟨pos, circle, ?_, hpnat, hcnat⟩
  unfold getPositionAndCircle
  dsimp only
  rw [hquo]
  dsimp only [bind, Except.bind]
  rw [hcircle, hpos]
  rfl

/-! ## The wheel of natural numbers -/

section Refines

variable {κ α : Type} [NeZero n] {wheel : TimeWheel κ α n}

/-- The two pointers move together. -/
theorem has_tick_nextPos {q : Fin n} (h : tw.Has i n q) : tw.tick.Has i n (TimeWheel.nextPos q) := by
  have hnext : (TimeWheel.nextPos q).val = if q.val = n - 1 then 0 else q.val + 1 := by
    unfold TimeWheel.nextPos
    split
    · exact Fin.val_zero n
    · rfl
  rw [hnext]
  exact h.tick

/-- The two divisions by zero happen together, and otherwise the positions and the turns are the same. -/
theorem getPositionAndCircle_refines (h : tw.Has wheel.interval n wheel.currentPos) {d : Int64}
    (hd : IsNat d k) :
    (wheel.getPositionAndCircle k = none ∧ tw.getPositionAndCircle d = .error .divideByZero) ∨
      ∃ q c pos circle, wheel.getPositionAndCircle k = some (q, c) ∧
        tw.getPositionAndCircle d = .ok (pos, circle) ∧ IsNat pos q ∧ IsNat circle c := by
  unfold TimeWheel.getPositionAndCircle
  dsimp only
  by_cases hi : wheel.interval / 1000000 = 0
  · exact .inl ⟨if_pos hi, getPositionAndCircle_error h hi d⟩
  · obtain ⟨pos, circle, heq, hpos, hcircle⟩ := getPositionAndCircle_ok h hi hd
    exact .inr ⟨_, _, pos, circle, if_neg hi, heq, hpos, hcircle⟩

end Refines

/-! ## Timers on every wheel -/

end Wheel

end Vmqant.Timer
