import Vmqant.Timer.OnTime

/-!
# Timers that are removed

Reference: `module/modules/timer/timingwheel.go`, lines 116-130 and 143-220.

`timer` has one slot for each key, that of the task which was added last; starting a task with the key deletes
it. `removeTask` looks in that slot only, and its loop ends with the first task that it removes, for then
`e.Next()` is `nil`. So it removes all tasks with the key if and only if there is one at most, in the slot of
the key, which is so in every run that adds no task with a key that is pending.
-/

namespace Vmqant.Timer

open Lts TimeWheel

variable {κ α : Type} {n : ℕ} [DecidableEq κ] {tw tw' : TimeWheel κ α n}

/-! ## The tasks with a key -/

/-- How many tasks with the key are in the slot. -/
def keyCount (tw : TimeWheel κ α n) (key : κ) (p : Fin n) : ℕ :=
  (tw.slots p).countP fun task => task.key = key

/-- No task with the key is pending. -/
def Gone (tw : TimeWheel κ α n) (key : κ) : Prop := ∀ p, ∀ task ∈ tw.slots p, task.key ≠ key

/-- The tasks with other keys are in their slots as they were, in order, with their turns to go. -/
def KeepsOthers (tw tw' : TimeWheel κ α n) (key : κ) : Prop :=
  ∀ p, (tw'.slots p).filter (fun task => task.key ≠ key) = (tw.slots p).filter fun task => task.key ≠ key

/-- There is one task with the key at most, and it is in the slot of the key. -/
def Indexed (tw : TimeWheel κ α n) (key : κ) : Prop :=
  ∀ p, keyCount tw key p ≤ if tw.timer key = some p then 1 else 0

theorem gone_iff {key : κ} : Gone tw key ↔ ∀ p, keyCount tw key p = 0 := by
  refine forall_congr' fun p => ?_
  rw [keyCount, List.countP_eq_zero]
  simp only [decide_eq_true_eq, ne_eq]

theorem Gone.indexed {key : κ} (h : Gone tw key) : Indexed tw key := fun p => by
  rw [gone_iff.mp h p]
  exact Nat.zero_le _

/-! ## A removal -/

theorem countP_eraseP {β : Type} (p : β → Bool) (l : List β) : (l.eraseP p).countP p = l.countP p - 1 := by
  induction l with
  | nil => rfl
  | cons x l ih =>
    by_cases hp : p x = true
    · rw [List.eraseP_cons_of_pos hp, List.countP_cons_of_pos hp, Nat.add_sub_cancel]
    · rw [List.eraseP_cons_of_neg hp, List.countP_cons_of_neg hp, List.countP_cons_of_neg hp, ih]

theorem keyCount_removeTask (tw : TimeWheel κ α n) (key : κ) (p : Fin n) :
    keyCount (tw.removeTask key) key p = keyCount tw key p - if tw.timer key = some p then 1 else 0 := by
  unfold keyCount
  rw [removeTask_slots]
  split
  · exact countP_eraseP _ _
  · rfl

theorem gone_removeTask_iff (tw : TimeWheel κ α n) (key : κ) :
    Gone (tw.removeTask key) key ↔ Indexed tw key := by
  rw [gone_iff]
  refine forall_congr' fun p => ?_
  rw [keyCount_removeTask, Nat.sub_eq_zero_iff_le]

theorem keepsOthers_removeTask (tw : TimeWheel κ α n) (key : κ) :
    KeepsOthers tw (tw.removeTask key) key := by
  intro p
  rw [removeTask_slots]
  split
  · exact filter_eraseP fun task htask => by simpa using (List.mem_filter.mp htask).2
  · rfl

/-- The slot of another key stays. -/
theorem timer_removeTask_of_ne {key key' : κ} (hkey : key' ≠ key) :
    (tw.removeTask key).timer key' = tw.timer key' := by
  unfold removeTask
  cases tw.timer key with
  | none => rfl
  | some position =>
    dsimp only
    split
    · exact Function.update_of_ne hkey _ _
    · rfl

/-! ## The slots of the keys along a run -/

theorem KeepsOthers.keyCount_eq {key key' : κ} (h : KeepsOthers tw tw' key) (hkey : key' ≠ key) (p : Fin n) :
    keyCount tw' key' p = keyCount tw key' p := by
  have hfilter : ∀ l : List (Task κ α), l.countP (fun task => task.key = key')
      = (l.filter fun task => task.key ≠ key).countP fun task => task.key = key' := by
    intro l
    rw [List.countP_filter]
    refine List.countP_congr fun task _ => ?_
    simp only [decide_eq_true_eq, Bool.and_eq_true]
    exact ⟨fun h => ⟨h, h ▸ hkey⟩, And.left⟩
  unfold keyCount
  rw [hfilter, h p, ← hfilter]

theorem indexed_removeTask (h : ∀ key, Indexed tw key) (key key' : κ) : Indexed (tw.removeTask key) key' := by
  by_cases hkey : key' = key
  · subst hkey
    exact ((gone_removeTask_iff tw key').mpr (h key')).indexed
  · intro p
    rw [(keepsOthers_removeTask tw key).keyCount_eq hkey, timer_removeTask_of_ne hkey]
    exact h key' p

/-- A scan keeps a task or starts it. -/
theorem countP_scanAndRunTask (key : κ) (l : List (Task κ α)) :
    (scanAndRunTask l).1.countP (fun task => task.key = key)
      + (scanAndRunTask l).2.countP (fun task => task.key = key) = l.countP fun task => task.key = key := by
  induction l with
  | nil => rfl
  | cons task l ih =>
    unfold scanAndRunTask
    dsimp only
    split
    · rw [List.countP_cons, List.countP_cons, ← ih]
      exact Nat.add_right_comm _ _ _
    · rw [List.countP_cons, List.countP_cons, ← ih]
      exact (Nat.add_assoc _ _ _).symm

/-- The keys of the tasks that are started lose their slots. -/
theorem timer_foldl (run : List (Task κ α)) (timer : κ → Option (Fin n)) (key : κ) :
    (run.foldl (fun (timer : κ → Option (Fin n)) task => Function.update timer task.key none) timer) key
      = if 0 < run.countP (fun task => task.key = key) then none else timer key := by
  induction run generalizing timer with
  | nil => rfl
  | cons task run ih =>
    rw [List.foldl_cons, ih, List.countP_cons]
    by_cases hkey : task.key = key
    · rw [hkey, Function.update_self, ite_self, if_pos (by simp)]
    · have hother : ¬ decide (task.key = key) = true := by simpa using hkey
      rw [Function.update_of_ne (Ne.symm hkey), if_neg hother, Nat.add_zero]

variable [NeZero n]

theorem keyCount_tickHandler (tw : TimeWheel κ α n) (key : κ) (p : Fin n) :
    keyCount tw.tickHandler key p
      + (if p = tw.currentPos then (scanAndRunTask (tw.slots p)).2.countP fun task => task.key = key else 0)
      = keyCount tw key p := by
  unfold keyCount
  rw [tickHandler_slots]
  split
  · exact countP_scanAndRunTask key _
  · rfl

theorem indexed_tickHandler (h : ∀ key, Indexed tw key) (key : κ) : Indexed tw.tickHandler key := by
  intro p
  have hcount := keyCount_tickHandler tw key p
  have htimer : tw.tickHandler.timer key
      = if 0 < (scanAndRunTask (tw.slots tw.currentPos)).2.countP (fun task => task.key = key) then none
        else tw.timer key := timer_foldl _ _ key
  have hp := h key p
  rw [htimer]
  by_cases hrun : 0 < (scanAndRunTask (tw.slots tw.currentPos)).2.countP fun task => task.key = key
  · -- a task with the key is started, and it was the only one
    have hhere := keyCount_tickHandler tw key tw.currentPos
    have hcurrent := h key tw.currentPos
    rw [if_pos rfl] at hhere
    have hslot : tw.timer key = some tw.currentPos := by
      by_contra hne
      rw [if_neg hne] at hcurrent
      omega
    rw [if_pos hrun, if_neg nofun]
    by_cases hcur : p = tw.currentPos
    · subst hcur
      rw [if_pos hslot] at hcurrent
      omega
    · rw [if_neg fun heq => hcur (Option.some.inj (hslot.symm.trans heq)).symm] at hp
      omega
  · rw [if_neg hrun]
    exact le_trans (by omega) hp

/-- The new task is the last one of a slot, which its key is mapped to. -/
theorem addTask_spec {auto : ℤ → κ} {delay : ℕ} {key : Option κ} {job : α}
    (hadd : tw.addTask auto delay key job = some tw') :
    ∃ (pos : Fin n) (task : Task κ α), task.key = (tw.assignKey auto key).1 ∧
      (∀ p, tw'.slots p = if p = pos then tw.slots p ++ [task] else tw.slots p) ∧
      ∀ k, tw'.timer k = if k = task.key then some pos else tw.timer k := by
  obtain ⟨⟨pos, circle⟩, -, rfl⟩ := Option.map_eq_some_iff.mp hadd
  refine ⟨pos, ⟨tw.added, delay, circle, (tw.assignKey auto key).1, job⟩, rfl, fun p => ?_, fun k => ?_⟩
  · refine (Function.update_apply _ _ _ _).trans ?_
    split
    · next hp =>
      subst hp
      rfl
    · rfl
  · exact Function.update_apply _ _ _ _

/-- A task whose key is not pending is added. -/
theorem indexed_addTask (h : ∀ key, Indexed tw key) {auto : ℤ → κ} {delay : ℕ} {key : Option κ} {job : α}
    (hfresh : Gone tw (tw.assignKey auto key).1) (hadd : tw.addTask auto delay key job = some tw')
    (key' : κ) : Indexed tw' key' := by
  obtain ⟨pos, task, htask, hslots, htimer⟩ := addTask_spec hadd
  rw [← htask] at hfresh
  intro p
  have hp := h key' p
  have hgone := gone_iff.mp hfresh p
  unfold keyCount at hp hgone ⊢
  rw [hslots, htimer]
  by_cases hkey : key' = task.key
  · subst hkey
    rw [if_pos rfl]
    by_cases hpos : p = pos
    · subst hpos
      rw [if_pos rfl, if_pos rfl, List.countP_append, hgone, List.countP_singleton]
      simp
    · rw [if_neg hpos, hgone]
      exact Nat.zero_le _
  · have hone : [task].countP (fun task => task.key = key') = 0 := by
      simpa using Ne.symm hkey
    rw [if_neg hkey]
    split
    · rw [List.countP_append, hone]
      exact hp
    · exact hp

/-! ## Runs -/

/-- A task is added with a key, given or generated, that no pending task has. -/
def AddsFresh (auto : ℤ → κ) (tw : TimeWheel κ α n) : Event κ α → Prop
  | .add _ key _ => Gone tw (tw.assignKey auto key).1
  | _ => True

/-- A key is removed whose tasks are one at most, in its slot. -/
def RemovesIndexed (tw : TimeWheel κ α n) : Event κ α → Prop
  | .remove key => Indexed tw key
  | _ => True

/-- What is asked of a removal: it takes the tasks with the key, and no other. -/
def Removes (auto : ℤ → κ) (tw : TimeWheel κ α n) (e : Event κ α) : Prop :=
  ∀ key tw', e = .remove key → step auto tw e = some tw' → Gone tw' key ∧ KeepsOthers tw tw' key

theorem removes_iff (auto : ℤ → κ) (tw : TimeWheel κ α n) (e : Event κ α) :
    Removes auto tw e ↔ RemovesIndexed tw e := by
  cases e with
  | tick => exact iff_of_true nofun trivial
  | add delay key job => exact iff_of_true nofun trivial
  | remove key =>
    have hkey := gone_removeTask_iff tw key
    constructor
    · exact fun h => hkey.mp (h key _ rfl rfl).1
    · rintro h key' tw' he hstep
      obtain rfl := Event.remove.inj he
      obtain rfl := Option.some.inj hstep
      exact ⟨hkey.mpr h, keepsOthers_removeTask tw key⟩

theorem indexed_step {auto : ℤ → κ} {e : Event κ α} (h : ∀ key, Indexed tw key) (he : AddsFresh auto tw e)
    (hstep : step auto tw e = some tw') (key : κ) : Indexed tw' key := by
  cases e with
  | tick =>
    obtain rfl := Option.some.inj hstep
    exact indexed_tickHandler h key
  | add delay key' job => exact indexed_addTask h he hstep key
  | remove key' =>
    obtain rfl := Option.some.inj hstep
    exact indexed_removeTask h key' key

/-- In a run of a new wheel, the removals do what is asked of them if and only if each finds one task with its
key at most, in the slot of the key. They do in a run that adds no task with a key that is pending. -/
theorem removes_along_iff (auto : ℤ → κ) (interval : ℕ) (hinterval : 0 < interval) (es : List (Event κ α)) :
    let tw : TimeWheel κ α n := .new interval hinterval
    (Along (step auto) (Removes auto) tw es ↔ Along (step auto) RemovesIndexed tw es) ∧
      (Along (step auto) (AddsFresh auto) tw es → Along (step auto) (Removes auto) tw es) := by
  intro tw
  have hiff : Along (step auto) (Removes auto) tw es ↔ Along (step auto) RemovesIndexed tw es :=
    along_congr (P := fun _ => True) (fun _ _ _ _ _ => trivial) (fun tw e _ => removes_iff auto tw e) trivial
  refine ⟨hiff, fun hfresh => hiff.mpr ?_⟩
  have hnew : ∀ key, Indexed tw key := fun key p => Nat.zero_le _
  refine Along.mono (P := fun tw => ∀ key, Indexed tw key) ?_ ?_ hnew hfresh
  · exact fun tw e tw' h he hstep => indexed_step h he hstep
  · intro tw e h _
    cases e with
    | remove key => exact h key
    | tick | add delay key job => exact trivial

/-! ### Keys that meet, on a wheel of four slots and a second -/

/-- The caller gives one timer the key 1, which the wheel then gives another. -/
def generatedKey : List (Event ℤ Unit) := [.add 2000000000 (some 1) (), .add 1000000000 none ()]

/-- A timer is set twice. -/
def setTwice : List (Event ℤ Unit) := [.add 1000000000 (some 7) (), .add 1000000000 (some 7) ()]

theorem removes_along_iff_sample :
    let tw : TimeWheel ℤ Unit 4 := .new 1000000000 (by norm_num)
    (Along (step id) (Removes id) tw (setTwice ++ [.remove 7])
        ↔ Along (step id) RemovesIndexed tw (setTwice ++ [.remove 7])) ∧
      (Along (step id) (AddsFresh id) tw (setTwice ++ [.remove 7])
        → Along (step id) (Removes id) tw (setTwice ++ [.remove 7])) :=
  removes_along_iff id 1000000000 (by norm_num) (setTwice ++ [.remove 7])

/-- The timer with the key 1 is not removed, and one of the two with the key 7 is not. -/
theorem removeTask_leaves :
    (∃ tw : TimeWheel ℤ Unit 4,
        run (step id) (.new 1000000000 (by norm_num)) (generatedKey ++ [.remove 1]) = some tw ∧
          ∃ task ∈ tw.slots 2, task.key = 1) ∧
      ∃ tw : TimeWheel ℤ Unit 4,
        run (step id) (.new 1000000000 (by norm_num)) (setTwice ++ [.remove 7]) = some tw ∧
          ∃ task ∈ tw.slots 1, task.key = 7 :=
  ⟨⟨_, rfl, _, List.mem_singleton.mpr rfl, rfl⟩, ⟨_, rfl, _, List.mem_singleton.mpr rfl, rfl⟩⟩

end Vmqant.Timer
