import Vmqant.Common.GoMap
import Vmqant.Timer.Positions

/-!
# The timing wheel in machine integers

Reference: `module/modules/timer/timingwheel.go`, lines 17-79 and 132-220.

The wheel with the slots and the map as the source has them: a slice of lists, and an `int` for each key. An
`addTask` takes any delay, though `AddTimer` and `AddTimerCustom` send only positive ones. Keys are values
that `==` compares and finds equal to themselves (so a NaN is no key). `ref` stands for the pointer to a task,
and the tasks that an event starts are returned beside the wheel.
-/

namespace Vmqant.Timer

open GoInt

/-- A task; `job` is the callback with its data. -/
structure SlotTask (κ α : Type) where
  ref : ℕ
  delay : Int64
  circle : Int64
  key : κ
  job : α
deriving DecidableEq

/-- `TimeWheel`. -/
structure SlotWheel (κ α : Type) extends Wheel where
  accumulator : Int64
  slots : List (List (SlotTask κ α))
  /-- The slot of each key. -/
  timer : AList fun _ : κ => Int64
  /-- How many tasks were added. -/
  added : ℕ

/-- What `Start` receives. -/
inductive SlotEvent (κ α : Type) where
  | tick
  | add (delay : Int64) (key : Option κ) (job : α)
  | remove (key : κ)
deriving DecidableEq

variable {κ α : Type}

namespace SlotWheel

/-- `New`. -/
def new (interval slotNum : Int64) : Except PanicValue (Option (SlotWheel κ α)) := do
  match ← Wheel.new interval slotNum with
  | none => pure none
  | some tw =>
    pure (some { tw with
      accumulator := 0
      slots := List.replicate slotNum.toNatClampNeg []
      timer := ∅
      added := 0 })

/-- A wheel that `New` gives. -/
theorem new_eq_ok {interval slotNum : Int64} {tw : SlotWheel κ α}
    (hnew : new interval slotNum = .ok (some tw)) :
    ∃ wheel, Wheel.new interval slotNum = .ok (some wheel) ∧
      tw = { wheel with
        accumulator := 0, slots := List.replicate slotNum.toNatClampNeg [], timer := ∅, added := 0 } := by
  obtain ⟨wheel, hwheel, hnew⟩ := Except.bind_eq_ok_iff.mp hnew
  cases wheel with
  | none => cases hnew
  | some wheel =>
    obtain rfl := Option.some.inj (Except.ok.inj hnew)
    exact ⟨wheel, hwheel, rfl⟩

/-- The key of a task that is added, and the accumulator after it. `auto` is the value of an `int64` among the
keys. -/
def assignKey (auto : Int64 → κ) (tw : SlotWheel κ α) : Option κ → κ × Int64
  | some key => (key, tw.accumulator)
  | none =>
    let accumulator := (if tw.accumulator ≥ Int64.maxValue then 0 else tw.accumulator) + 1
    (auto accumulator, accumulator)

/-- `scanAndRunTask`: what is left of the list, and the tasks that are removed from it and started. -/
def scanAndRunTask : List (SlotTask κ α) → List (SlotTask κ α) × List (SlotTask κ α)
  | [] => ([], [])
  | task :: rest =>
    let (kept, run) := scanAndRunTask rest
    if task.circle > 0 then ({ task with circle := task.circle - 1 } :: kept, run)
    else (kept, task :: run)

variable [DecidableEq κ]

/-- `addTask`. -/
def addTask (auto : Int64 → κ) (tw : SlotWheel κ α) (delay : Int64) (key : Option κ) (job : α) :
    Except PanicValue (SlotWheel κ α) := do
  let (key, accumulator) := tw.assignKey auto key
  let (pos, circle) ← tw.getPositionAndCircle delay
  let task : SlotTask κ α := { ref := tw.added, delay, circle, key, job }
  let l ← atInt tw.slots pos
  pure { tw with
    accumulator
    slots := tw.slots.set pos.toNatClampNeg (l ++ [task])
    timer := tw.timer.insert key pos
    added := tw.added + 1 }

/-- `tickHandler`: the slot under the pointer is scanned, the pointer having moved on. -/
def tickHandler (tw : SlotWheel κ α) : Except PanicValue (SlotWheel κ α × List (SlotTask κ α)) := do
  let l ← atInt tw.slots tw.currentPos
  let (kept, run) := scanAndRunTask l
  pure ({ tw with
    toWheel := tw.tick
    slots := tw.slots.set tw.currentPos.toNatClampNeg kept
    timer := run.foldl (fun timer task => timer.erase task.key) tw.timer }, run)

/-- `removeTask`. A removed element has no successor, so the loop ends at the first task with the key. -/
def removeTask (tw : SlotWheel κ α) (key : κ) : Except PanicValue (SlotWheel κ α) :=
  match tw.timer.lookup key with
  | none => pure tw
  | some position => do
    let l ← atInt tw.slots position
    pure { tw with
      slots := tw.slots.set position.toNatClampNeg (l.eraseP fun task => task.key = key)
      timer := if l.any fun task => task.key = key then tw.timer.erase key else tw.timer }

/-- One event, with the tasks it starts. -/
def step (auto : Int64 → κ) (tw : SlotWheel κ α) :
    SlotEvent κ α → Except PanicValue (SlotWheel κ α × List (SlotTask κ α))
  | .tick => tw.tickHandler
  | .add delay key job => do pure (← tw.addTask auto delay key job, [])
  | .remove key => do pure (← tw.removeTask key, [])

/-! ## What an event does -/

variable {auto : Int64 → κ} {tw tw' : SlotWheel κ α}

/-- The new task is the last one of a slot, which the map names under its key. -/
theorem addTask_eq_ok {delay : Int64} {key : Option κ} {job : α} :
    tw.addTask auto delay key job = .ok tw' ↔ ∃ pos circle l,
      tw.getPositionAndCircle delay = .ok (pos, circle) ∧ atInt tw.slots pos = .ok l ∧
      tw' = { tw with
        accumulator := (tw.assignKey auto key).2
        slots := tw.slots.set pos.toNatClampNeg
          (l ++ [⟨tw.added, delay, circle, (tw.assignKey auto key).1, job⟩])
        timer := tw.timer.insert (tw.assignKey auto key).1 pos
        added := tw.added + 1 } := by
  unfold addTask
  dsimp only
  rw [Except.bind_eq_ok_iff]
  simp only [Except.bind_eq_ok_iff, Prod.exists]
  refine exists₂_congr fun pos circle => ?_
  rw [← exists_and_left]
  refine exists_congr fun l => and_congr_right fun _ => and_congr_right fun _ => ?_
  exact (Except.ok.injEq _ _).to_iff.trans eq_comm

theorem tickHandler_eq_ok {run : List (SlotTask κ α)} :
    tw.tickHandler = .ok (tw', run) ↔ ∃ l, atInt tw.slots tw.currentPos = .ok l ∧ run = (scanAndRunTask l).2 ∧
      tw' = { tw with
        toWheel := tw.tick
        slots := tw.slots.set tw.currentPos.toNatClampNeg (scanAndRunTask l).1
        timer := run.foldl (fun timer task => timer.erase task.key) tw.timer } := by
  unfold tickHandler
  rw [Except.bind_eq_ok_iff]
  refine exists_congr fun l => and_congr_right fun _ => ?_
  constructor
  · intro h
    obtain ⟨rfl, rfl⟩ := Prod.mk.inj (Except.ok.inj h)
    exact ⟨rfl, rfl⟩
  · rintro ⟨rfl, rfl⟩
    rfl

/-- Nothing is removed, or the first task with the key from the slot that the map names. -/
theorem removeTask_eq_ok {key : κ} (h : tw.removeTask key = .ok tw') :
    (tw.timer.lookup key = none ∧ tw' = tw) ∨ ∃ pos l, tw.timer.lookup key = some pos ∧
      atInt tw.slots pos = .ok l ∧
      tw' = { tw with
        slots := tw.slots.set pos.toNatClampNeg (l.eraseP fun task => task.key = key)
        timer := if l.any fun task => task.key = key then tw.timer.erase key else tw.timer } := by
  unfold removeTask at h
  split at h
  · next hlookup => exact .inl ⟨hlookup, (Except.ok.inj h).symm⟩
  · next pos hlookup =>
    obtain ⟨l, hl, h⟩ := Except.bind_eq_ok_iff.mp h
    exact .inr ⟨pos, l, hlookup, hl, (Except.ok.inj h).symm⟩

end SlotWheel

end Vmqant.Timer
