import Vmqant.Common.Lts

/-!
# The timing wheel

Reference: `module/modules/timer/timingwheel.go`, lines 50-79 and 132-220.

The events of the `select` in `Start`: a tick, a task to add, a key to remove. Keys are any values
that can be compared, with the `int64` of the accumulator among them; durations are in nanoseconds,
and only positive delays reach the wheel (`AddTimer`). Two fields and a tag are not in the source:
`ref` tells the tasks apart as their pointers do, and `ticks` and `started` record the ticks processed
and the jobs started.
-/

namespace Vmqant.Timer

open Lts

/-- A task; `job` is the callback with its data. -/
structure Task (κ α : Type) where
  ref : ℕ
  delay : ℕ
  circle : ℕ
  key : κ
  job : α
deriving DecidableEq

/-- A job that was started, with the number of the tick. -/
structure Start (κ α : Type) where
  tick : ℕ
  task : Task κ α
deriving DecidableEq

/-- A wheel with `n` slots. -/
structure TimeWheel (κ α : Type) (n : ℕ) where
  interval : ℕ
  interval_pos : 0 < interval
  accumulator : ℤ
  slots : Fin n → List (Task κ α)
  /-- The slot of each key. -/
  timer : κ → Option (Fin n)
  currentPos : Fin n
  /-- How many tasks were added. -/
  added : ℕ
  ticks : ℕ
  started : List (Start κ α)

/-- What happens to the wheel. -/
inductive Event (κ α : Type) where
  | tick
  | add (delay : ℕ) (key : Option κ) (job : α)
  | remove (key : κ)
deriving DecidableEq

variable {κ α : Type} {n : ℕ} [NeZero n]

/-- `New`, which gives no wheel for an interval or a number of slots that is not positive. -/
def TimeWheel.new (interval : ℕ) (h : 0 < interval) : TimeWheel κ α n where
  interval := interval
  interval_pos := h
  accumulator := 0
  slots := fun _ => []
  timer := fun _ => none
  currentPos := 0
  added := 0
  ticks := 0
  started := []

namespace TimeWheel

/-- The slot after `p`. -/
def nextPos (p : Fin n) : Fin n :=
  if h : p.val = n - 1 then 0 else ⟨p.val + 1, by have := p.isLt; omega⟩

/-- The slot and the number of turns for a delay; an interval below a millisecond divides by zero. -/
def getPositionAndCircle (tw : TimeWheel κ α n) (d : ℕ) : Option (Fin n × ℕ) :=
  let delayMillisecond := d / 1000000
  let intervalMillisecond := tw.interval / 1000000
  if intervalMillisecond = 0 then none
  else
    let circle := delayMillisecond / intervalMillisecond / n
    let pos := Fin.ofNat n (tw.currentPos.val + delayMillisecond / intervalMillisecond)
    some (pos, circle)

/-- `math.MaxInt64`. -/
def maxInt64 : ℤ := 9223372036854775807

/-- The key of a task that is added, and the accumulator after it. `auto` is the value of an `int64`
among the keys. -/
def assignKey (auto : ℤ → κ) (tw : TimeWheel κ α n) : Option κ → κ × ℤ
  | some key => (key, tw.accumulator)
  | none =>
    let accumulator := (if tw.accumulator ≥ maxInt64 then 0 else tw.accumulator) + 1
    (auto accumulator, accumulator)

variable [DecidableEq κ]

/-- `addTask`. -/
def addTask (auto : ℤ → κ) (tw : TimeWheel κ α n) (delay : ℕ) (key : Option κ) (job : α) :
    Option (TimeWheel κ α n) :=
  let (key, accumulator) := tw.assignKey auto key
  (tw.getPositionAndCircle delay).map fun (pos, circle) =>
    let task : Task κ α := { ref := tw.added, delay, circle, key, job }
    { tw with
      accumulator
      slots := Function.update tw.slots pos (tw.slots pos ++ [task])
      timer := Function.update tw.timer key (some pos)
      added := tw.added + 1 }

/-- `scanAndRunTask`: what is left of the list, and the tasks that are removed from it and started. A
task with turns to go has one less after it. -/
def scanAndRunTask : List (Task κ α) → List (Task κ α) × List (Task κ α)
  | [] => ([], [])
  | task :: rest =>
    let (kept, run) := scanAndRunTask rest
    if task.circle > 0 then ({ task with circle := task.circle - 1 } :: kept, run)
    else (kept, task :: run)

/-- `tickHandler`: the slot under the pointer is scanned, the pointer having moved on. -/
def tickHandler (tw : TimeWheel κ α n) : TimeWheel κ α n :=
  let (kept, run) := scanAndRunTask (tw.slots tw.currentPos)
  { tw with
    currentPos := nextPos tw.currentPos
    slots := Function.update tw.slots tw.currentPos kept
    timer := run.foldl (fun timer task => Function.update timer task.key none) tw.timer
    ticks := tw.ticks + 1
    started := tw.started ++ run.map fun task => ⟨tw.ticks + 1, task⟩ }

/-- `removeTask`. A removed element has no successor, so the loop ends at the first task with the
key. -/
def removeTask (tw : TimeWheel κ α n) (key : κ) : TimeWheel κ α n :=
  match tw.timer key with
  | none => tw
  | some position =>
    let l := tw.slots position
    { tw with
      slots := Function.update tw.slots position (l.eraseP fun task => task.key = key)
      timer := if l.any fun task => task.key = key then Function.update tw.timer key none
        else tw.timer }

/-- One event; `none` is the panic of a division by zero. -/
def step (auto : ℤ → κ) (tw : TimeWheel κ α n) : Event κ α → Option (TimeWheel κ α n)
  | .tick => some tw.tickHandler
  | .add delay key job => tw.addTask auto delay key job
  | .remove key => some (tw.removeTask key)

end TimeWheel

end Vmqant.Timer
