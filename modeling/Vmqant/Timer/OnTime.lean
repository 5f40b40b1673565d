import Vmqant.Timer.TimingWheel

/-!
# Tasks start on time

A task in slot `p` with `c` turns to go, the pointer being at `q`, starts when the pointer comes to
`p` for the `c + 1`st time: after `offset q p + c * n` more ticks. This number goes down by one with
every tick and nothing else changes it, so the tick on which a task starts is known when it is added.
-/

namespace Vmqant.Timer

open Lts TimeWheel

variable {κ α : Type} {n : ℕ}

/-! ## Positions -/

section Positions

/-- How many slots the pointer at `q` is before `p`. -/
def offset (q p : Fin n) : ℕ := if q.val ≤ p.val then p.val - q.val else p.val + n - q.val

theorem offset_self (p : Fin n) : offset p p = 0 := by simp [offset]

variable [NeZero n]

theorem offset_nextPos_self (p : Fin n) : offset (nextPos p) p + 1 = n := by
  have hp := p.isLt
  unfold offset nextPos
  split
  · next h =>
    rw [if_pos (by simp), Fin.val_zero]
    omega
  · next h =>
    rw [if_neg (by simp)]
    dsimp only
    omega

theorem offset_nextPos_of_ne {q p : Fin n} (h : p ≠ q) : offset (nextPos q) p + 1 = offset q p := by
  have hp := p.isLt
  have hq := q.isLt
  have hne : p.val ≠ q.val := fun heq => h (Fin.ext heq)
  unfold offset nextPos
  split
  · next hlast =>
    rw [if_pos (by simp), if_neg (by omega), Fin.val_zero]
    omega
  · next hlast =>
    dsimp only
    split
    · rw [if_pos (by omega)]
      omega
    · rw [if_neg (by omega)]
      omega

/-- The slot chosen for a task is as many slots away as the remainder of its ticks. -/
theorem offset_ofNat (q : Fin n) (k : ℕ) : offset q (Fin.ofNat n (q.val + k)) = k % n := by
  have hq := q.isLt
  have hk : k % n < n := Nat.mod_lt _ (NeZero.pos n)
  have hval : (Fin.ofNat n (q.val + k)).val = (q.val + k % n) % n := by
    rw [Fin.val_ofNat, Nat.add_mod_mod]
  unfold offset
  rw [hval]
  by_cases hwrap : q.val + k % n < n
  · rw [Nat.mod_eq_of_lt hwrap, if_pos (by omega)]
    omega
  · have hsub : (q.val + k % n) % n = q.val + k % n - n := by
      rw [Nat.mod_eq_sub_mod (by omega), Nat.mod_eq_of_lt (by omega)]
    rw [hsub, if_neg (by omega)]
    omega

end Positions

/-! ## The task in the wheel -/

section Wheel

variable {tw : TimeWheel κ α n} {r due : ℕ} {task : Task κ α}

/-- The tasks of a slot that are the task `r`. -/
def occ (tw : TimeWheel κ α n) (r : ℕ) (p : Fin n) : List (Task κ α) :=
  (tw.slots p).filter fun task => task.ref = r

/-- The starts of the task `r`. -/
def starts (tw : TimeWheel κ α n) (r : ℕ) : List (Start κ α) :=
  tw.started.filter fun x => x.task.ref = r

/-- The task `r` is in one slot, once, and will start on the tick `due`. -/
structure Waiting (tw : TimeWheel κ α n) (r : ℕ) (task : Task κ α) (due : ℕ) : Prop where
  known : r < tw.added
  starts_nil : starts tw r = []
  slot : ∃ p c, (∀ p', occ tw r p' = if p' = p then [{ task with circle := c }] else []) ∧
    tw.ticks + offset tw.currentPos p + c * n + 1 = due

/-- The task `r` was started once, on the tick `due`, and is gone. -/
structure Started (tw : TimeWheel κ α n) (r : ℕ) (task : Task κ α) (due : ℕ) : Prop where
  known : r < tw.added
  gone : ∀ p, occ tw r p = []
  starts_eq : starts tw r = [⟨due, { task with circle := 0 }⟩]
  due_le : due ≤ tw.ticks

/-- What a step from `tw` to `tw'` that does not touch the task `r` keeps. -/
structure Frame (tw tw' : TimeWheel κ α n) (r : ℕ) : Prop where
  interval_eq : tw'.interval = tw.interval
  added_le : tw.added ≤ tw'.added
  currentPos_eq : tw'.currentPos = tw.currentPos
  ticks_eq : tw'.ticks = tw.ticks
  started_eq : tw'.started = tw.started
  occ_eq : ∀ p, occ tw' r p = occ tw r p

theorem Waiting.frame {tw' : TimeWheel κ α n} (h : Waiting tw r task due) (hf : Frame tw tw' r) :
    Waiting tw' r task due := by
  obtain ⟨p, c, hocc, hdue⟩ := h.slot
  refine ⟨h.known.trans_le hf.added_le, ?_, p, c, fun p' => ?_, ?_⟩
  · rw [starts, hf.started_eq]
    exact h.starts_nil
  · rw [hf.occ_eq, hocc]
  · rw [hf.ticks_eq, hf.currentPos_eq, hdue]

theorem Started.frame {tw' : TimeWheel κ α n} (h : Started tw r task due) (hf : Frame tw tw' r) :
    Started tw' r task due where
  known := h.known.trans_le hf.added_le
  gone p := by rw [hf.occ_eq, h.gone]
  starts_eq := by
    rw [starts, hf.started_eq]
    exact h.starts_eq
  due_le := by
    rw [hf.ticks_eq]
    exact h.due_le

/-- A task that is added is seen under its own tag only. -/
theorem occ_append {tw' : TimeWheel κ α n} {p : Fin n} {t : Task κ α}
    (h : tw'.slots = Function.update tw.slots p (tw.slots p ++ [t])) (r : ℕ) (p' : Fin n) :
    occ tw' r p' = if p' = p ∧ t.ref = r then occ tw r p' ++ [t] else occ tw r p' := by
  unfold occ
  rw [h, Function.update_apply]
  by_cases hp : p' = p
  · rw [if_pos hp, List.filter_append, hp]
    by_cases hr : t.ref = r
    · rw [if_pos ⟨rfl, hr⟩, List.filter_cons_of_pos (by simpa using hr), List.filter_nil]
    · rw [if_neg (fun h => hr h.2), List.filter_cons_of_neg (by simpa using hr), List.filter_nil,
        List.append_nil]
  · rw [if_neg hp, if_neg (fun h => hp h.1)]

theorem filter_eraseP {β : Type} {p q : β → Bool} {l : List β} (h : ∀ x ∈ l.filter q, ¬ p x) :
    (l.eraseP p).filter q = l.filter q := by
  induction l with
  | nil => rfl
  | cons x l ih =>
    by_cases hp : p x
    · have hq : ¬ q x := fun hq => h x (List.mem_filter.mpr ⟨List.mem_cons_self, hq⟩) hp
      rw [List.eraseP_cons_of_pos hp, List.filter_cons_of_neg hq]
    · have hl := ih fun y hy => h y (List.filter_subset _ (List.subset_cons_self x l) hy)
      rw [List.eraseP_cons_of_neg hp, List.filter_cons, List.filter_cons, hl]

/-! ## Steps -/

/-- A scan works on each task by itself. -/
theorem scanAndRunTask_filter (r : ℕ) (l : List (Task κ α)) :
    scanAndRunTask (l.filter fun task => task.ref = r)
      = ((scanAndRunTask l).1.filter fun task => task.ref = r,
         (scanAndRunTask l).2.filter fun task => task.ref = r) := by
  induction l with
  | nil => rfl
  | cons t l ih =>
    by_cases hr : t.ref = r
    · rw [List.filter_cons_of_pos (by simpa using hr), scanAndRunTask, ih, scanAndRunTask]
      dsimp only
      split
      · rw [List.filter_cons_of_pos (by simpa using hr)]
      · rw [List.filter_cons_of_pos (by simpa using hr)]
    · rw [List.filter_cons_of_neg (by simpa using hr), ih, scanAndRunTask]
      dsimp only
      split
      · rw [List.filter_cons_of_neg (by simpa using hr)]
      · rw [List.filter_cons_of_neg (by simpa using hr)]

variable [DecidableEq κ]

/-- The removal takes one task with the key out of the slot of the key. -/
theorem removeTask_slots (tw : TimeWheel κ α n) (key : κ) (p : Fin n) :
    (tw.removeTask key).slots p
      = if tw.timer key = some p then (tw.slots p).eraseP fun task => task.key = key else tw.slots p := by
  unfold TimeWheel.removeTask
  cases tw.timer key with
  | none => rfl
  | some position =>
    dsimp only
    rw [Function.update_apply]
    by_cases hp : p = position
    · subst hp
      rw [if_pos rfl, if_pos rfl]
    · rw [if_neg hp, if_neg fun h => hp (Option.some.inj h).symm]

/-- The removal of a key leaves the tasks with other keys. -/
theorem occ_removeTask {key : κ} {p : Fin n} (h : ∀ t ∈ occ tw r p, t.key ≠ key) :
    occ (tw.removeTask key) r p = occ tw r p := by
  unfold occ
  rw [removeTask_slots]
  split
  · exact filter_eraseP fun t ht => by simpa using h t ht
  · rfl

theorem Frame.removeTask {key : κ} (h : ∀ p, ∀ t ∈ occ tw r p, t.key ≠ key) :
    Frame tw (tw.removeTask key) r := by
  have hocc := fun p => occ_removeTask (h p)
  unfold TimeWheel.removeTask at hocc ⊢
  split at hocc
  · exact ⟨rfl, le_rfl, rfl, rfl, rfl, hocc⟩
  · exact ⟨rfl, le_rfl, rfl, rfl, rfl, hocc⟩

variable [NeZero n]

/-- With an interval of `m` milliseconds a task can be added. -/
theorem addTask_eq (auto : ℤ → κ) {m : ℕ} (hm : 0 < m) (hi : tw.interval = m * 1000000) (delay : ℕ)
    (key : Option κ) (job : α) :
    ∃ tw', tw.addTask auto delay key job = some tw' ∧ tw'.added = tw.added + 1 ∧
      (∀ r, r ≠ tw.added → Frame tw tw' r) ∧ tw'.currentPos = tw.currentPos ∧
      tw'.ticks = tw.ticks ∧ tw'.started = tw.started ∧
      ∀ p, occ tw' tw.added p
        = if p = Fin.ofNat n (tw.currentPos.val + delay / 1000000 / m) then occ tw tw.added p ++
            [⟨tw.added, delay, delay / 1000000 / m / n, (tw.assignKey auto key).1, job⟩]
          else occ tw tw.added p := by
  have hms : tw.interval / 1000000 = m := by rw [hi, Nat.mul_div_cancel _ (by norm_num)]
  have hpos : tw.getPositionAndCircle delay
      = some (Fin.ofNat n (tw.currentPos.val + delay / 1000000 / m), delay / 1000000 / m / n) := by
    unfold getPositionAndCircle
    dsimp only
    rw [hms, if_neg hm.ne']
  unfold addTask
  rw [hpos]
  refine ⟨_, rfl, rfl, fun r hr => ⟨rfl, Nat.le_succ _, rfl, rfl, rfl, fun p => ?_⟩, rfl, rfl, rfl,
    fun p => ?_⟩
  · rw [occ_append rfl, if_neg (fun h => hr h.2.symm)]
  · rw [occ_append rfl]
    simp only [and_true]
    rfl

/-- The slot under the pointer keeps what a scan leaves of it. -/
theorem tickHandler_slots (tw : TimeWheel κ α n) (p : Fin n) : tw.tickHandler.slots p
    = if p = tw.currentPos then (scanAndRunTask (tw.slots p)).1 else tw.slots p := by
  unfold tickHandler
  dsimp only
  rw [Function.update_apply]
  split
  · next hp => rw [hp]
  · rfl

theorem occ_tickHandler (p : Fin n) : occ tw.tickHandler r p
    = if p = tw.currentPos then (scanAndRunTask (occ tw r p)).1 else occ tw r p := by
  unfold occ
  rw [tickHandler_slots]
  split
  · rw [scanAndRunTask_filter]
  · rfl

theorem starts_tickHandler : starts tw.tickHandler r
    = starts tw r ++ (scanAndRunTask (occ tw r tw.currentPos)).2.map fun t => ⟨tw.ticks + 1, t⟩ := by
  unfold occ starts tickHandler
  dsimp only
  rw [List.filter_append, List.filter_map, scanAndRunTask_filter]
  rfl

theorem Waiting.tickHandler (h : Waiting tw r task due) :
    Waiting tw.tickHandler r task due ∨ Started tw.tickHandler r task due := by
  obtain ⟨p, c, hocc, hdue⟩ := h.slot
  by_cases hp : p = tw.currentPos
  · -- the slot of the task is scanned
    subst hp
    rw [offset_self] at hdue
    have hself : occ tw r tw.currentPos = [{ task with circle := c }] := by rw [hocc, if_pos rfl]
    have hscan : scanAndRunTask (occ tw r tw.currentPos)
        = if c > 0 then ([{ task with circle := c - 1 }], []) else ([], [{ task with circle := c }]) := by
      rw [hself, scanAndRunTask, scanAndRunTask]
    cases c with
    | zero =>
      refine .inr ⟨h.known, fun p' => ?_, ?_, ?_⟩
      · rw [occ_tickHandler]
        split
        · next hp' => rw [hp', hscan]; rfl
        · next hp' => rw [hocc, if_neg hp']
      · rw [starts_tickHandler, hscan, h.starts_nil, ← hdue]
        simp
      · rw [← hdue]
        simp [TimeWheel.tickHandler]
    | succ c =>
      refine .inl ⟨h.known, ?_, tw.currentPos, c, fun p' => ?_, ?_⟩
      · rw [starts_tickHandler, hscan, h.starts_nil]
        simp
      · rw [occ_tickHandler]
        split
        · next hp' => rw [hp', hscan]; simp
        · next hp' => rw [hocc, if_neg hp']
      · -- one turn less, and a whole turn until the pointer is back
        have hturn := offset_nextPos_self tw.currentPos
        rw [← hdue]
        show tw.ticks + 1 + offset (nextPos tw.currentPos) tw.currentPos + c * n + 1 = _
        rw [Nat.add_mul]
        omega
  · -- another slot is scanned, and the pointer comes nearer
    have hnil : occ tw r tw.currentPos = [] := by rw [hocc, if_neg (Ne.symm hp)]
    refine .inl ⟨h.known, ?_, p, c, fun p' => ?_, ?_⟩
    · rw [starts_tickHandler, hnil, h.starts_nil]
      rfl
    · rw [occ_tickHandler]
      split
      · next hp' => rw [hp', hnil, if_neg (Ne.symm hp)]; rfl
      · exact hocc p'
    · have hstep := offset_nextPos_of_ne hp
      rw [← hdue]
      show tw.ticks + 1 + offset (nextPos tw.currentPos) p + c * n + 1 = _
      omega

theorem Started.tickHandler (h : Started tw r task due) : Started tw.tickHandler r task due where
  known := h.known
  gone p := by
    rw [occ_tickHandler, h.gone]
    split <;> rfl
  starts_eq := by
    rw [starts_tickHandler, h.gone, h.starts_eq]
    rfl
  due_le := h.due_le.trans (Nat.le_succ _)

end Wheel

/-! ## Runs -/

section Runs

variable {tw : TimeWheel κ α n} {m r due : ℕ} {task : Task κ α}

/-- A wheel with an interval of `m` milliseconds: no task is tagged that was not added. -/
structure Running (m : ℕ) (tw : TimeWheel κ α n) : Prop where
  interval_eq : tw.interval = m * 1000000
  occ_nil : ∀ r, tw.added ≤ r → ∀ p, occ tw r p = []
  starts_nil : ∀ r, tw.added ≤ r → starts tw r = []

/-- The task `r` starts on the tick `due` and on no other. -/
def Scheduled (tw : TimeWheel κ α n) (r : ℕ) (task : Task κ α) (due : ℕ) : Prop :=
  Waiting tw r task due ∨ Started tw r task due

theorem Scheduled.frame {tw' : TimeWheel κ α n} (h : Scheduled tw r task due)
    (hf : Frame tw tw' r) : Scheduled tw' r task due :=
  h.imp (·.frame hf) (·.frame hf)

theorem Scheduled.known (h : Scheduled tw r task due) : r < tw.added :=
  h.elim (·.known) (·.known)

/-- The tasks in the slots that are the task `r` have its key. -/
theorem Scheduled.key_eq (h : Scheduled tw r task due) {p : Fin n} {t : Task κ α}
    (ht : t ∈ occ tw r p) : t.key = task.key := by
  rcases h with h | h
  · obtain ⟨q, c, hocc, -⟩ := h.slot
    rw [hocc] at ht
    split at ht
    · rw [List.mem_singleton.mp ht]
    · exact absurd ht List.not_mem_nil
  · rw [h.gone] at ht
    exact absurd ht List.not_mem_nil

theorem Scheduled.starts_eq (h : Scheduled tw r task due) :
    starts tw r = if due ≤ tw.ticks then [⟨due, { task with circle := 0 }⟩] else [] := by
  rcases h with h | h
  · obtain ⟨p, c, -, hdue⟩ := h.slot
    rw [if_neg (by omega), h.starts_nil]
  · rw [if_pos h.due_le, h.starts_eq]

/-- The ticks among the events. -/
def tickCount (es : List (Event κ α)) : ℕ :=
  es.countP fun
    | .tick => true
    | _ => false

variable [NeZero n]

theorem Running.new (hm : 0 < m * 1000000) :
    Running m (TimeWheel.new (m * 1000000) hm : TimeWheel κ α n) :=
  ⟨rfl, fun _ _ _ => rfl, fun _ _ => rfl⟩

variable [DecidableEq κ] {auto : ℤ → κ}

theorem Running.step (auto : ℤ → κ) (hm : 0 < m) (h : Running m tw) (e : Event κ α) :
    ∃ tw', tw.step auto e = some tw' ∧ Running m tw' := by
  cases e with
  | tick =>
    refine ⟨_, rfl, h.interval_eq, fun r hr p => ?_, fun r hr => ?_⟩
    · rw [occ_tickHandler, h.occ_nil r hr]
      split <;> rfl
    · rw [starts_tickHandler, h.starts_nil r hr, h.occ_nil r hr]
      rfl
  | add delay key job =>
    -- the tag that is given out is below the new count
    obtain ⟨tw', htw', hadded, hframe, -⟩ := addTask_eq auto hm h.interval_eq delay key job
    refine ⟨tw', htw', ?_, fun r hr p => ?_, fun r hr => ?_⟩
    · rw [(hframe (tw.added + 1) (by omega)).interval_eq, h.interval_eq]
    · rw [(hframe r (by omega)).occ_eq, h.occ_nil r (by omega)]
    · rw [starts, (hframe r (by omega)).started_eq]
      exact h.starts_nil r (by omega)
  | remove key =>
    have hframe : ∀ r, tw.added ≤ r → Frame tw (tw.removeTask key) r := by
      intro r hr
      apply Frame.removeTask
      intro p t ht
      rw [h.occ_nil r hr] at ht
      exact absurd ht List.not_mem_nil
    have hadded : tw.added ≤ (tw.removeTask key).added := (hframe tw.added le_rfl).added_le
    refine ⟨_, rfl, ?_, fun r hr p => ?_, fun r hr => ?_⟩
    · rw [(hframe tw.added le_rfl).interval_eq, h.interval_eq]
    · rw [(hframe r (hadded.trans hr)).occ_eq, h.occ_nil r (hadded.trans hr)]
    · rw [starts, (hframe r (hadded.trans hr)).started_eq]
      exact h.starts_nil r (hadded.trans hr)

/-- No event but the removal of its key touches a task. -/
theorem Scheduled.step (hm : 0 < m) (h : Running m tw) (hs : Scheduled tw r task due)
    {e : Event κ α} (he : e ≠ .remove task.key) {tw' : TimeWheel κ α n}
    (htw' : tw.step auto e = some tw') : Scheduled tw' r task due := by
  cases e with
  | tick =>
    obtain rfl := Option.some.inj htw'
    exact hs.elim (·.tickHandler) fun hs => .inr hs.tickHandler
  | add delay key job =>
    obtain ⟨tw₁, htw₁, -, hframe, -⟩ := addTask_eq auto hm h.interval_eq delay key job
    obtain rfl := Option.some.inj (htw₁.symm.trans htw')
    exact hs.frame (hframe r hs.known.ne)
  | remove key =>
    obtain rfl := Option.some.inj htw'
    refine hs.frame (Frame.removeTask fun p t ht hkey => he ?_)
    rw [← hkey, hs.key_eq ht]

/-- The tick on which a task starts, known when it is added. -/
theorem Scheduled.addTask (auto : ℤ → κ) (hm : 0 < m) (h : Running m tw) (delay : ℕ) (key : Option κ) (job : α) :
    ∃ tw', tw.step auto (.add delay key job) = some tw' ∧ tw'.ticks = tw.ticks ∧
      Scheduled tw' tw.added ⟨tw.added, delay, 0, (tw.assignKey auto key).1, job⟩
        (tw.ticks + delay / 1000000 / m + 1) := by
  obtain ⟨tw', htw', hadded, -, hpos, hticks, hstarted, hocc⟩ :=
    addTask_eq auto hm h.interval_eq delay key job
  refine ⟨tw', htw', hticks, .inl ⟨by omega, ?_,
    Fin.ofNat n (tw.currentPos.val + delay / 1000000 / m), delay / 1000000 / m / n, fun p => ?_, ?_⟩⟩
  · rw [starts, hstarted]
    exact h.starts_nil _ le_rfl
  · rw [hocc, h.occ_nil _ le_rfl, List.nil_append]
  · -- slots and turns together are the ticks of the delay
    rw [hpos, hticks, offset_ofNat, Nat.add_assoc tw.ticks, Nat.mul_comm _ n, Nat.mod_add_div]

theorem ticks_step {e : Event κ α} {tw' : TimeWheel κ α n} (h : Running m tw) (hm : 0 < m)
    (htw' : tw.step auto e = some tw') : tw'.ticks = tw.ticks + tickCount [e] := by
  cases e with
  | tick =>
    obtain rfl := Option.some.inj htw'
    rfl
  | add delay key job =>
    obtain ⟨tw₁, htw₁, -, -, -, hticks, -⟩ := addTask_eq auto hm h.interval_eq delay key job
    obtain rfl := Option.some.inj (htw₁.symm.trans htw')
    exact hticks
  | remove key =>
    obtain rfl := Option.some.inj htw'
    unfold TimeWheel.removeTask
    split <;> rfl

/-- A run keeps what is scheduled, and counts its ticks. -/
theorem run_scheduled (hm : 0 < m) {es : List (Event κ α)} (h : Running m tw)
    (hs : Scheduled tw r task due) (hes : ∀ e ∈ es, e ≠ .remove task.key) :
    ∃ tw', run (TimeWheel.step auto) tw es = some tw' ∧ Scheduled tw' r task due ∧
      tw'.ticks = tw.ticks + tickCount es := by
  induction es generalizing tw with
  | nil => exact ⟨tw, rfl, hs, rfl⟩
  | cons e es ih =>
    obtain ⟨tw₁, htw₁, h₁⟩ := h.step auto hm e
    have hs₁ := hs.step hm h (hes e List.mem_cons_self) htw₁
    obtain ⟨tw', hrun, hs', hticks⟩ := ih h₁ hs₁ fun e' he' => hes e' (List.mem_cons_of_mem _ he')
    refine ⟨tw', run_cons_eq_some.mpr ⟨tw₁, htw₁, hrun⟩, hs', ?_⟩
    rw [hticks, ticks_step h hm htw₁, Nat.add_assoc, tickCount, tickCount, tickCount,
      ← List.countP_append, List.singleton_append]

end Runs

/-- With an interval of `m ≥ 1` milliseconds and any number of slots, a task whose key is not removed
is started once, on the `⌊delay / m⌋ + 1`st tick after it was added, and on no other: in every state
after that tick its one start is recorded, and before it none. -/
theorem starts_on_time {n : ℕ} [NeZero n] [DecidableEq κ] (auto : ℤ → κ) (m : ℕ) (hm : 0 < m)
    (es₁ : List (Event κ α)) (delay : ℕ) (key : Option κ) (job : α) :
    ∃ s s₁ : TimeWheel κ α n,
      run (TimeWheel.step auto) (TimeWheel.new (m * 1000000) (by omega)) es₁ = some s ∧
      s.step auto (.add delay key job) = some s₁ ∧
      ∀ es₂ : List (Event κ α), (∀ e ∈ es₂, e ≠ .remove (s.assignKey auto key).1) →
        ∃ s₂, run (TimeWheel.step auto) s₁ es₂ = some s₂ ∧
          starts s₂ s.added = if delay / 1000000 / m + 1 ≤ tickCount es₂ then
              [⟨s.ticks + (delay / 1000000 / m + 1),
                ⟨s.added, delay, 0, (s.assignKey auto key).1, job⟩⟩]
            else [] := by
  have hnew : Running m (TimeWheel.new (m * 1000000) (by omega) : TimeWheel κ α n) := Running.new _
  obtain ⟨s, hrun, hs⟩ := run_total (C := fun _ => True) (fun _ e h _ => Running.step auto hm h e)
    hnew fun e (_ : e ∈ es₁) => trivial
  obtain ⟨s₁, hs₁, hticks₁, hsched⟩ := Scheduled.addTask auto hm hs delay key job
  refine ⟨s, s₁, hrun, hs₁, fun es₂ hes₂ => ?_⟩
  obtain ⟨s₁', hs₁', hrunning⟩ := hs.step auto hm (.add delay key job)
  obtain rfl := Option.some.inj (hs₁.symm.trans hs₁')
  obtain ⟨s₂, hrun₂, hsched₂, hticks₂⟩ := run_scheduled hm hrunning hsched hes₂
  refine ⟨s₂, hrun₂, ?_⟩
  rw [hsched₂.starts_eq, hticks₂, hticks₁, Nat.add_assoc]
  simp only [Nat.add_le_add_iff_left]

/-! A wheel with two slots and an interval of 10 ms: the task with a delay of 45 ms goes once round
the wheel while another task is added to its slot and removed. -/

theorem starts_on_time_sample : ∃ s s₁ s₂ : TimeWheel ℤ Unit 2,
    run (TimeWheel.step id) (TimeWheel.new (10 * 1000000) (by omega)) [.tick, .add 5000000 none ()]
      = some s ∧
    s.step id (.add 45000000 (some 7) ()) = some s₁ ∧
    run (TimeWheel.step id) s₁ [.add 25000000 (some 8) (), .tick, .remove 8, .tick, .tick, .tick, .tick]
      = some s₂ ∧
    starts s₂ s.added = [⟨s.ticks + 5, ⟨s.added, 45000000, 0, 7, ()⟩⟩] := by
  obtain ⟨s, s₁, hs, hs₁, h⟩ := starts_on_time (n := 2) (id : ℤ → ℤ) 10 (by decide)
    [.tick, .add 5000000 none ()] 45000000 (some 7) ()
  obtain ⟨s₂, hs₂, hstarts⟩ := h
    [.add 25000000 (some 8) (), .tick, .remove 8, .tick, .tick, .tick, .tick] (by simp [assignKey])
  exact ⟨s, s₁, s₂, hs, hs₁, hs₂, hstarts⟩

end Vmqant.Timer
