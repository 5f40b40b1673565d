import Vmqant.Timer.SlotIndex

/-!
# The two wheels

The wheel in machine integers does what `TimeWheel` does, whose numbers are natural ones and whose slots and
map are functions: in a run of the events that `AddTimer`, `AddTimerCustom` and `RemoveTimer` send, the two
panic together (`run_refines_timeWheel`), and each tick starts the same tasks (`tickHandler_refines`). So the
results on `TimeWheel` are about the wheel of the source.
-/

namespace Vmqant.Timer

open GoInt Lts

variable {κ α : Type} {n : ℕ}

/-! ## The relation -/

/-- A task and the task in natural numbers. -/
structure SameTask (task : SlotTask κ α) (task' : Task κ α) : Prop where
  ref : task.ref = task'.ref
  delay : IsNat task.delay task'.delay
  circle : IsNat task.circle task'.circle
  key : task.key = task'.key
  job : task.job = task'.job

/-- The slots hold the same tasks, in order. -/
def SameSlots (slots : List (List (SlotTask κ α))) (slots' : Fin n → List (Task κ α)) : Prop :=
  slots.length = n ∧ ∀ p : Fin n, ∃ l, slots[p.val]? = some l ∧ List.Forall₂ SameTask l (slots' p)

/-- The maps have the same slots. -/
def SameTimer [DecidableEq κ] (timer : AList fun _ : κ => Int64) (timer' : κ → Option (Fin n)) : Prop :=
  ∀ key, Option.Rel (fun pos (p : Fin n) => IsNat pos p) (timer.lookup key) (timer' key)

structure Refines [DecidableEq κ] (tw : SlotWheel κ α) (wheel : TimeWheel κ α n) : Prop where
  has : tw.Has wheel.interval n wheel.currentPos
  accumulator : tw.accumulator.toInt = wheel.accumulator
  slots : SameSlots tw.slots wheel.slots
  timer : SameTimer tw.timer wheel.timer
  added : tw.added = wheel.added

/-- What reaches the wheel: only positive delays. -/
def SlotEvent.Sent : SlotEvent κ α → Prop
  | .add delay _ _ => 0 < delay
  | _ => True

/-- The event in natural numbers. -/
def SlotEvent.toEvent : SlotEvent κ α → Event κ α
  | .tick => .tick
  | .add delay key job => .add delay.toInt.toNat key job
  | .remove key => .remove key

/-! ## Slots and maps -/

theorem SameSlots.set {slots : List (List (SlotTask κ α))} {slots' : Fin n → List (Task κ α)}
    (h : SameSlots slots slots') (p : Fin n) {l : List (SlotTask κ α)} {l' : List (Task κ α)}
    (hl : List.Forall₂ SameTask l l') : SameSlots (slots.set p l) (Function.update slots' p l') := by
  refine ⟨by rw [List.length_set, h.1], fun q => ?_⟩
  rw [Function.update_apply, List.getElem?_set]
  by_cases hq : q = p
  · subst hq
    have hlt : q.val < slots.length := h.1 ▸ q.isLt
    rw [if_pos rfl, if_pos rfl, if_pos hlt]
    exact ⟨l, rfl, hl⟩
  · rw [if_neg fun heq => hq (Fin.ext heq.symm), if_neg hq]
    exact h.2 q

theorem same_scanAndRunTask {l : List (SlotTask κ α)} {l' : List (Task κ α)}
    (h : List.Forall₂ SameTask l l') :
    List.Forall₂ SameTask (SlotWheel.scanAndRunTask l).1 (TimeWheel.scanAndRunTask l').1 ∧
      List.Forall₂ SameTask (SlotWheel.scanAndRunTask l).2 (TimeWheel.scanAndRunTask l').2 := by
  induction h with
  | nil => exact ⟨.nil, .nil⟩
  | @cons task task' l l' htask _ ih =>
    have hcircle : task.circle > 0 ↔ task'.circle > 0 := isNat_zero.lt_iff htask.circle
    unfold SlotWheel.scanAndRunTask TimeWheel.scanAndRunTask
    dsimp only
    by_cases hpos : task'.circle > 0
    · rw [if_pos (hcircle.mpr hpos), if_pos hpos]
      refine ⟨.cons ?_ ih.1, ih.2⟩
      exact ⟨htask.ref, htask.delay, htask.circle.sub (k := 1) rfl hpos, htask.key, htask.job⟩
    · rw [if_neg (hcircle.not.mpr hpos), if_neg hpos]
      exact ⟨ih.1, .cons htask ih.2⟩

/-- The accumulators generate the same keys. -/
theorem same_assignKey {auto : ℤ → κ} {tw : SlotWheel κ α} {wheel : TimeWheel κ α n}
    (h : tw.accumulator.toInt = wheel.accumulator) (key : Option κ) :
    wheel.assignKey auto key = ((tw.assignKey (fun x => auto x.toInt) key).1,
      (tw.assignKey (fun x => auto x.toInt) key).2.toInt) := by
  cases key with
  | some key => rw [TimeWheel.assignKey, SlotWheel.assignKey, h]
  | none =>
    have hlt := tw.accumulator.toInt_lt
    have hmax : tw.accumulator ≥ Int64.maxValue ↔ wheel.accumulator ≥ TimeWheel.maxInt64 := by
      rw [ge_iff_le, Int64.le_iff_toInt_le, h]
      rfl
    have hnext : ((if tw.accumulator ≥ Int64.maxValue then 0 else tw.accumulator) + 1 : Int64).toInt
        = (if wheel.accumulator ≥ TimeWheel.maxInt64 then 0 else wheel.accumulator) + 1 := by
      have hge := tw.accumulator.le_toInt
      rw [h] at hlt hge
      by_cases hwrap : wheel.accumulator ≥ TimeWheel.maxInt64
      · rw [if_pos (hmax.mpr hwrap), if_pos hwrap]
        rfl
      · -- below the maximum the sum fits
        have hone : (1 : Int64).toInt = 1 := rfl
        rw [if_neg (hmax.not.mpr hwrap), if_neg hwrap, Int64.toInt_add, h, hone]
        unfold TimeWheel.maxInt64 at hwrap
        exact Int.bmod_eq_of_le (by norm_num at hge ⊢; omega) (by norm_num; omega)
    rw [TimeWheel.assignKey, SlotWheel.assignKey, hnext]

variable [DecidableEq κ]

theorem SameTimer.insert {timer : AList fun _ : κ => Int64} {timer' : κ → Option (Fin n)}
    (h : SameTimer timer timer') (key : κ) {pos : Int64} {p : Fin n} (hpos : IsNat pos p) :
    SameTimer (timer.insert key pos) (Function.update timer' key (some p)) := by
  intro key'
  rw [GoMap.lookup_insert, Function.update_apply]
  split
  · exact .some hpos
  · exact h key'

theorem SameTimer.erase {timer : AList fun _ : κ => Int64} {timer' : κ → Option (Fin n)}
    (h : SameTimer timer timer') (key : κ) :
    SameTimer (timer.erase key) (Function.update timer' key none) := by
  intro key'
  rw [GoMap.lookup_erase, Function.update_apply]
  split
  · exact .none
  · exact h key'

/-- The keys of the same tasks are deleted. -/
theorem SameTimer.foldl {run : List (SlotTask κ α)} {run' : List (Task κ α)}
    (hrun : List.Forall₂ SameTask run run') {timer : AList fun _ : κ => Int64} {timer' : κ → Option (Fin n)}
    (h : SameTimer timer timer') :
    SameTimer (run.foldl (fun timer task => timer.erase task.key) timer)
      (run'.foldl (fun timer task => Function.update timer task.key none) timer') := by
  induction hrun generalizing timer timer' with
  | nil => exact h
  | cons htask _ ih =>
    rw [List.foldl_cons, List.foldl_cons, ← htask.key]
    exact ih (h.erase _)

theorem same_eraseP {l : List (SlotTask κ α)} {l' : List (Task κ α)}
    (h : List.Forall₂ SameTask l l') (key : κ) :
    List.Forall₂ SameTask (l.eraseP fun task => task.key = key) (l'.eraseP fun task => task.key = key) ∧
      (l.any fun task => task.key = key) = l'.any fun task => task.key = key := by
  induction h with
  | nil => exact ⟨.nil, rfl⟩
  | @cons task task' l l' htask hl ih =>
    rw [List.eraseP_cons, List.eraseP_cons, List.any_cons, List.any_cons, htask.key, ih.2]
    refine ⟨?_, rfl⟩
    cases decide (task'.key = key) with
    | false => exact .cons htask ih.1
    | true => exact hl

/-! ## The operations -/

variable {auto : ℤ → κ} {tw : SlotWheel κ α} {wheel : TimeWheel κ α n}

theorem removeTask_refines (h : Refines tw wheel) (key : κ) :
    ∃ tw', tw.removeTask key = .ok tw' ∧ Refines tw' (wheel.removeTask key) := by
  have hkey := h.timer key
  unfold SlotWheel.removeTask TimeWheel.removeTask
  generalize tw.timer.lookup key = pos, wheel.timer key = p at hkey ⊢
  cases hkey with
  | none => exact ⟨tw, rfl, h⟩
  | @some pos p hpos =>
    obtain ⟨l, hl, hsame⟩ := h.slots.2 p
    obtain ⟨hkept, hany⟩ := same_eraseP hsame key
    dsimp only
    rw [hpos.atInt_eq_ok hl, hpos.toNatClampNeg_eq]
    refine ⟨_, rfl, h.has, h.accumulator, h.slots.set p hkept, ?_, h.added⟩
    dsimp only
    rw [hany]
    split
    · exact h.timer.erase key
    · exact h.timer

variable [NeZero n]

/-- A tick starts the same tasks. -/
theorem tickHandler_refines (h : Refines tw wheel) :
    ∃ tw' run run', tw.tickHandler = .ok (tw', run) ∧ Refines tw' wheel.tickHandler ∧
      wheel.tickHandler.started = wheel.started ++ run'.map (Start.mk (wheel.ticks + 1)) ∧
      List.Forall₂ SameTask run run' := by
  obtain ⟨l, hl, hsame⟩ := h.slots.2 wheel.currentPos
  obtain ⟨hkept, hrun⟩ := same_scanAndRunTask hsame
  have hindex := h.has.currentPos.atInt_eq_ok hl
  refine ⟨_, _, _, SlotWheel.tickHandler_eq_ok.mpr ⟨l, hindex, rfl, rfl⟩, ?_, rfl, hrun⟩
  refine ⟨Wheel.has_tick_nextPos h.has, h.accumulator, ?_, h.timer.foldl hrun, h.added⟩
  dsimp only
  rw [h.has.currentPos.toNatClampNeg_eq]
  exact h.slots.set wheel.currentPos hkept

/-- The divisions by zero happen together, and otherwise the task comes to the same slot. -/
theorem addTask_refines (auto : ℤ → κ) (h : Refines tw wheel) {delay : Int64} {k : ℕ}
    (hdelay : IsNat delay k) (key : Option κ) (job : α) :
    Option.Rel Refines (tw.addTask (fun x => auto x.toInt) delay key job).toOption
      (wheel.addTask auto k key job) := by
  unfold TimeWheel.addTask
  rcases Wheel.getPositionAndCircle_refines h.has hdelay with
    ⟨hnone, herror⟩ | ⟨q, c, pos, circle, hsome, hok, hpos, hc⟩
  · rw [hnone, SlotWheel.addTask]
    dsimp only
    rw [herror]
    exact .none
  · obtain ⟨l, hl, hsame⟩ := h.slots.2 q
    have hadd : tw.addTask (fun x => auto x.toInt) delay key job = .ok _ :=
      SlotWheel.addTask_eq_ok.mpr ⟨pos, circle, l, hok, hpos.atInt_eq_ok hl, rfl⟩
    rw [hsome, hadd, same_assignKey h.accumulator]
    refine .some ⟨h.has, rfl, ?_, h.timer.insert _ hpos, congrArg (· + 1) h.added⟩
    dsimp only
    rw [hpos.toNatClampNeg_eq]
    refine h.slots.set q (List.rel_append hsame (.cons ?_ .nil))
    exact ⟨h.added, hdelay, hc, rfl, rfl⟩

/-! ## Runs -/

theorem refines_new {interval slotNum : Int64} (hnew : SlotWheel.new interval slotNum = .ok (some tw))
    (hn : IsNat slotNum n) :
    ∃ hpos, Refines tw (TimeWheel.new interval.toInt.toNat hpos : TimeWheel κ α n) := by
  obtain ⟨wheel, hwheel, rfl⟩ := SlotWheel.new_eq_ok hnew
  obtain ⟨rfl, hhas⟩ := Wheel.has_new hwheel
  have hslots : slotNum.toInt.toNat = n := congrArg Int.toNat hn
  rw [hslots] at hhas
  refine ⟨hhas.interval_pos, ?_, rfl, ?_, fun _ => .none, rfl⟩
  · have hzero : ((0 : Fin n) : ℕ) = 0 := Fin.val_zero n
    show Wheel.Has _ _ n (0 : Fin n).val
    rw [hzero]
    exact hhas
  · refine ⟨by rw [List.length_replicate, hn.toNatClampNeg_eq], fun p => ⟨[], ?_, .nil⟩⟩
    dsimp only
    rw [hn.toNatClampNeg_eq, List.getElem?_replicate, if_pos p.isLt]

theorem step_refines {st : Tracked κ α} (h : Refines st.wheel wheel) {e : SlotEvent κ α} (he : e.Sent) :
    Option.Rel (fun st wheel => Refines st.wheel wheel) (Tracked.step (fun x => auto x.toInt) st e)
      (wheel.step auto e.toEvent) := by
  cases e with
  | tick =>
    obtain ⟨tw', run, run', hok, href, -, -⟩ := tickHandler_refines h
    rw [Tracked.step, SlotWheel.step, hok]
    exact .some href
  | add delay key job =>
    have hadd := addTask_refines auto h (isNat_of_nonneg (Int64.le_of_lt he)) key job
    rw [Tracked.step, SlotWheel.step, SlotEvent.toEvent, TimeWheel.step]
    generalize st.wheel.addTask (fun x => auto x.toInt) delay key job = r,
      wheel.addTask auto delay.toInt.toNat key job = r' at hadd ⊢
    cases r with
    | error v =>
      cases hadd
      exact .none
    | ok tw' =>
      cases hadd with
      | some href => exact .some href
  | remove key =>
    obtain ⟨tw', hok, href⟩ := removeTask_refines h key
    rw [Tracked.step, SlotWheel.step, hok]
    exact .some href

/-- In a run of what is sent to it, the wheel in machine integers is the one in natural numbers, and panics
when that one does. -/
theorem run_refines_timeWheel (auto : ℤ → κ) {interval slotNum : Int64}
    (hnew : SlotWheel.new interval slotNum = .ok (some tw)) (hn : IsNat slotNum n) {es : List (SlotEvent κ α)}
    (hsent : ∀ e ∈ es, e.Sent) :
    ∃ hpos, Option.Rel (fun st wheel => Refines st.wheel wheel)
      (run (Tracked.step fun x => auto x.toInt) ⟨tw, []⟩ es)
      (run (TimeWheel.step auto) (TimeWheel.new interval.toInt.toNat hpos : TimeWheel κ α n)
        (es.map SlotEvent.toEvent)) := by
  obtain ⟨hpos, href⟩ := refines_new hnew hn
  exact ⟨hpos, rel_run (fun st wheel e h he => step_refines h he) href hsent⟩

end Vmqant.Timer
