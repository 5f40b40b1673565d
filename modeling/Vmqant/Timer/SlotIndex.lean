import Vmqant.Common.Buckets
import Vmqant.Timer.SlotWheel

/-!
# The index of the timing wheel

Reference: `module/modules/timer/timingwheel.go`, lines 132-220.

Each of the three operations changes `timer` and a slot, one after the other. `Tracked` puts beside the wheel
what is pending by its history alone: the tasks that were added and neither started nor removed.
`indexInvariant_run` is that the map and the slots agree with it in every run that adds no key of a pending
task. The slots are the buckets of `Buckets`, with `timer` as their index.
-/

namespace Vmqant.Timer

open GoInt Lts

variable {κ α : Type}

/-- What the history knows of a task. -/
def SlotTask.entry (task : SlotTask κ α) : ℕ × κ := (task.ref, task.key)

/-- A scan keeps a task or starts it. -/
theorem SlotWheel.perm_scanAndRunTask (l : List (SlotTask κ α)) :
    (l.map SlotTask.entry).Perm
      ((scanAndRunTask l).1.map SlotTask.entry ++ (scanAndRunTask l).2.map SlotTask.entry) := by
  induction l with
  | nil => exact .nil
  | cons task l ih =>
    unfold scanAndRunTask
    dsimp only
    split
    · exact ih.cons _
    · exact (ih.cons _).trans List.perm_middle.symm

/-- The task is in the list of the slot. -/
def SlotWheel.Holds (tw : SlotWheel κ α) (p : ℕ) (e : ℕ × κ) : Prop :=
  ∃ l, tw.slots[p]? = some l ∧ e ∈ l.map SlotTask.entry

/-- A wheel with the tasks that are pending. -/
structure Tracked (κ α : Type) where
  wheel : SlotWheel κ α
  pending : List (ℕ × κ)

namespace Tracked

variable [DecidableEq κ]

/-- What is pending after an event that started the tasks `run`. -/
def pendingAfter (auto : Int64 → κ) (st : Tracked κ α) (run : List (SlotTask κ α)) :
    SlotEvent κ α → List (ℕ × κ)
  | .tick => st.pending.filter fun e => e.1 ∉ run.map SlotTask.ref
  | .add _ key _ => st.pending ++ [(st.wheel.added, (st.wheel.assignKey auto key).1)]
  | .remove key => st.pending.filter fun e => e.2 ≠ key

/-- One event; `none` is a panic. -/
def step (auto : Int64 → κ) (st : Tracked κ α) (e : SlotEvent κ α) : Option (Tracked κ α) :=
  match st.wheel.step auto e with
  | .error _ => none
  | .ok (wheel, run) => some ⟨wheel, st.pendingAfter auto run e⟩

/-- A task is added with a key, given or generated, that no pending task has. -/
def AddsFresh (auto : Int64 → κ) (st : Tracked κ α) : SlotEvent κ α → Prop
  | .add _ key _ => (st.wheel.assignKey auto key).1 ∉ st.pending.map Prod.snd
  | _ => True

instance (auto : Int64 → κ) (st : Tracked κ α) (e : SlotEvent κ α) : Decidable (AddsFresh auto st e) :=
  match e with
  | .add _ key _ => inferInstanceAs (Decidable ((st.wheel.assignKey auto key).1 ∉ st.pending.map Prod.snd))
  | .tick | .remove _ => isTrue trivial

/-- The map, the slots and the pointer agree with what is pending. -/
structure IndexInvariant (st : Tracked κ α) : Prop where
  /-- The map has one entry for each pending task, and no other. -/
  timer_keys : st.wheel.timer.keys.Perm (st.pending.map Prod.snd)
  /-- The entry names the slot whose list contains the task. -/
  timer_slot : ∀ e ∈ st.pending, ∀ p, st.wheel.Holds p e →
    ∃ pos, st.wheel.timer.lookup e.2 = some pos ∧ IsNat pos p
  /-- Each pending task is in one list. -/
  one_slot : ∀ e ∈ st.pending, ∃! p, st.wheel.Holds p e
  /-- It is there once, and nothing else is in the lists. -/
  slots_perm : (st.wheel.slots.flatten.map SlotTask.entry).Perm st.pending
  pending_nodup : st.pending.Nodup
  slotNum : IsNat st.wheel.slotNum st.wheel.slots.length
  currentPos : 0 ≤ st.wheel.currentPos ∧ st.wheel.currentPos < st.wheel.slotNum

/-- What every event preserves. -/
structure Good (st : Tracked κ α) : Prop where
  has : ∃ i p, st.wheel.Has i st.wheel.slots.length p
  indexed : Buckets.Indexed SlotTask.key IsNat st.wheel.slots st.wheel.timer
  entries : (st.wheel.slots.flatten.map SlotTask.entry).Perm st.pending
  refs_nodup : (st.pending.map Prod.fst).Nodup
  refs_lt : ∀ e ∈ st.pending, e.1 < st.wheel.added

variable {auto : Int64 → κ} {st st' : Tracked κ α}

theorem Good.keys_perm (h : Good st) :
    (st.wheel.slots.flatten.map SlotTask.key).Perm (st.pending.map Prod.snd) := by
  have hkeys := h.entries.map Prod.snd
  rwa [List.map_map] at hkeys

/-- A task in a slot has its entry in the map. -/
theorem Good.lookup_of_holds (h : Good st) {p : ℕ} {e : ℕ × κ} (hp : st.wheel.Holds p e) :
    ∃ pos, st.wheel.timer.lookup e.2 = some pos ∧ IsNat pos p := by
  obtain ⟨l, hl, he⟩ := hp
  obtain ⟨task, htask, rfl⟩ := List.mem_map.mp he
  exact h.indexed.lookup p l hl task htask

theorem Good.exists_holds (h : Good st) {e : ℕ × κ} (he : e ∈ st.pending) : ∃ p, st.wheel.Holds p e := by
  obtain ⟨task, htask, rfl⟩ := List.mem_map.mp (h.entries.mem_iff.mpr he)
  obtain ⟨l, hl, htask⟩ := List.mem_flatten.mp htask
  obtain ⟨p, hp⟩ := List.mem_iff_getElem?.mp hl
  exact ⟨p, l, hp, List.mem_map_of_mem htask⟩

theorem Good.indexInvariant (h : Good st) : IndexInvariant st where
  timer_keys := h.indexed.keys_perm.trans h.keys_perm
  timer_slot e _ p hp := h.lookup_of_holds hp
  one_slot e he := by
    obtain ⟨p, hp⟩ := h.exists_holds he
    refine ⟨p, hp, fun q hq => ?_⟩
    -- both slots are the one that the map names
    obtain ⟨pos, hpos, hnat⟩ := h.lookup_of_holds hp
    obtain ⟨pos', hpos', hnat'⟩ := h.lookup_of_holds hq
    obtain rfl : pos = pos' := Option.some.inj (hpos.symm.trans hpos')
    exact (hnat'.eq_iff hnat).mp rfl
  slots_perm := h.entries
  pending_nodup := h.refs_nodup.of_map Prod.fst
  slotNum := by
    obtain ⟨i, p, hhas⟩ := h.has
    exact hhas.slotNum
  currentPos := by
    obtain ⟨i, p, hhas⟩ := h.has
    have hlt := hhas.pos_lt
    rw [isNat_zero.le_iff hhas.currentPos, hhas.currentPos.lt_iff hhas.slotNum]
    omega

/-! ## The operations -/

theorem good_new {interval slotNum : Int64} {tw : SlotWheel κ α}
    (hnew : SlotWheel.new interval slotNum = .ok (some tw)) : Good ⟨tw, []⟩ := by
  obtain ⟨wheel, hwheel, rfl⟩ := SlotWheel.new_eq_ok hnew
  obtain ⟨rfl, hhas⟩ := Wheel.has_new hwheel
  refine ⟨⟨interval.toInt.toNat, 0, ?_⟩, Buckets.indexed_empty _, ?_, List.nodup_nil, nofun⟩
  · rw [List.length_replicate]
    exact hhas
  · dsimp only
    rw [List.flatten_replicate_nil]
    exact .nil

/-- A task with a new key is added. -/
theorem good_addTask (h : Good st) {tw : SlotWheel κ α} {delay : Int64} {key : Option κ} {job : α}
    (hfresh : (st.wheel.assignKey auto key).1 ∉ st.pending.map Prod.snd)
    (hadd : st.wheel.addTask auto delay key job = .ok tw) :
    Good ⟨tw, st.pending ++ [(st.wheel.added, (st.wheel.assignKey auto key).1)]⟩ := by
  obtain ⟨pos, circle, l, -, hindex, rfl⟩ := SlotWheel.addTask_eq_ok.mp hadd
  obtain ⟨hpos, hl⟩ := atInt_eq_ok.mp hindex
  refine ⟨?_, h.indexed.push hl (fun hmem => hfresh (h.keys_perm.mem_iff.mp hmem)) hpos, ?_, ?_, ?_⟩
  · dsimp only
    rw [List.length_set]
    exact h.has
  · refine ((Buckets.flatten_set_concat_perm hl _).map SlotTask.entry).trans ?_
    exact (h.entries.cons _).trans (List.perm_append_singleton _ _).symm
  · rw [List.map_append, List.map_singleton, List.nodup_append_comm]
    refine List.nodup_cons.mpr ⟨fun hmem => ?_, h.refs_nodup⟩
    -- every pending task was added before
    obtain ⟨e, he, href⟩ := List.mem_map.mp hmem
    exact (h.refs_lt e he).ne href
  · intro e he
    rcases List.mem_append.mp he with he | he
    · exact (h.refs_lt e he).trans (Nat.lt_succ_self _)
    · obtain rfl := List.mem_singleton.mp he
      exact Nat.lt_succ_self _

/-- Tasks are taken out of a slot, and their keys out of the map. `f` tells the pending tasks that are gone
from the others. -/
theorem Good.takeOut (h : Good st) {p : ℕ} {l kept gone : List (SlotTask κ α)}
    (hl : st.wheel.slots[p]? = some l)
    (hperm : (l.map SlotTask.entry).Perm (kept.map SlotTask.entry ++ gone.map SlotTask.entry)) {wheel : Wheel}
    (hhas : ∃ i q, wheel.Has i st.wheel.slots.length q) {γ : Type} [DecidableEq γ] {f : ℕ × κ → γ}
    (hnodup : (st.pending.map f).Nodup) :
    Good ⟨{ st.wheel with
        toWheel := wheel
        slots := st.wheel.slots.set p kept
        timer := gone.foldl (fun timer task => timer.erase task.key) st.wheel.timer },
      st.pending.filter fun e => f e ∉ (gone.map SlotTask.entry).map f⟩ where
  has := by
    dsimp only
    rw [List.length_set]
    exact hhas
  indexed := by
    have hkeys := hperm.map Prod.snd
    rw [List.map_append, List.map_map, List.map_map, List.map_map] at hkeys
    have htake := h.indexed.takeOut hl hkeys
    rwa [List.foldl_map] at htake
  entries := by
    have hall := h.entries.symm.trans (Buckets.flatten_map_perm_of_set hl hperm)
    exact (Buckets.perm_filter_not_mem hall hnodup).symm
  refs_nodup := h.refs_nodup.sublist (List.filter_sublist.map _)
  refs_lt e he := h.refs_lt e (List.mem_of_mem_filter he)

/-- The slot under the pointer is scanned. -/
theorem good_tickHandler (h : Good st) {tw : SlotWheel κ α} {run : List (SlotTask κ α)}
    (htick : st.wheel.tickHandler = .ok (tw, run)) :
    Good ⟨tw, st.pending.filter fun e => e.1 ∉ run.map SlotTask.ref⟩ := by
  obtain ⟨l, hindex, rfl, rfl⟩ := SlotWheel.tickHandler_eq_ok.mp htick
  obtain ⟨i, p, hhas⟩ := h.has
  have htake :=
    h.takeOut (atInt_eq_ok.mp hindex).2 (SlotWheel.perm_scanAndRunTask l) ⟨i, _, hhas.tick⟩ h.refs_nodup
  rwa [List.map_map] at htake

/-- The map names the slot the task is in, so that it is found. -/
theorem Good.found (h : Good st) {key : κ} {pos : Int64} {l : List (SlotTask κ α)}
    (hlookup : st.wheel.timer.lookup key = some pos) (hindex : atInt st.wheel.slots pos = .ok l) :
    ∃ task ∈ l, task.key = key := by
  obtain ⟨hpos, hl⟩ := atInt_eq_ok.mp hindex
  obtain ⟨p, l', task, hp, hl', htask, hkey⟩ := h.indexed.exists_of_lookup hlookup
  obtain rfl : p = pos.toNatClampNeg := (hp.eq_iff hpos).mp rfl
  obtain rfl : l' = l := Option.some.inj (hl'.symm.trans hl)
  exact ⟨task, htask, hkey⟩

theorem good_removeTask (h : Good st) {tw : SlotWheel κ α} {key : κ}
    (hremove : st.wheel.removeTask key = .ok tw) :
    Good ⟨tw, st.pending.filter fun e => e.2 ≠ key⟩ := by
  have htimer := h.indexed.keys_perm.trans h.keys_perm
  rcases SlotWheel.removeTask_eq_ok hremove with ⟨hlookup, rfl⟩ | ⟨pos, l, hlookup, hindex, rfl⟩
  · -- no pending task has the key
    have hfilter : (st.pending.filter fun e => e.2 ≠ key) = st.pending := by
      refine List.filter_eq_self.mpr fun e he => ?_
      rw [decide_eq_true_eq]
      rintro rfl
      have hkey := htimer.mem_iff.mpr (List.mem_map_of_mem he)
      exact AList.lookup_eq_none.mp hlookup (AList.mem_keys.mpr hkey)
    rw [hfilter]
    exact h
  · obtain ⟨task, htask, hkey⟩ := h.found hlookup hindex
    have hany : (l.any fun task => task.key = key) = true :=
      List.any_eq_true.mpr ⟨task, htask, decide_eq_true hkey⟩
    obtain ⟨task, l₁, l₂, -, hkey, hsplit, herase⟩ :=
      List.exists_of_eraseP (p := fun task : SlotTask κ α => task.key = key) htask (decide_eq_true hkey)
    have hperm : (l.map SlotTask.entry).Perm
        ((l₁ ++ l₂).map SlotTask.entry ++ [task].map SlotTask.entry) := by
      rw [hsplit, ← List.map_append]
      exact (List.perm_middle.trans (List.perm_append_singleton task (l₁ ++ l₂)).symm).map SlotTask.entry
    have hnodup := htimer.nodup_iff.mp st.wheel.timer.keys_nodup
    have htake := h.takeOut (atInt_eq_ok.mp hindex).2 hperm h.has hnodup
    obtain rfl := of_decide_eq_true hkey
    rw [if_pos hany, herase]
    simp only [List.map_singleton, List.mem_singleton] at htake
    exact htake

/-! ## Runs -/

theorem good_step (h : Good st) {e : SlotEvent κ α} (hfresh : AddsFresh auto st e)
    (hstep : step auto st e = some st') : Good st' := by
  unfold step at hstep
  split at hstep
  · cases hstep
  · next tw run hok =>
    obtain rfl := Option.some.inj hstep
    cases e with
    | tick => exact good_tickHandler h hok
    | add delay key job =>
      obtain ⟨tw', hadd, hpure⟩ := Except.bind_eq_ok_iff.mp hok
      obtain ⟨rfl, -⟩ := Prod.mk.inj (Except.ok.inj hpure)
      exact good_addTask h hfresh hadd
    | remove key =>
      obtain ⟨tw', hremove, hpure⟩ := Except.bind_eq_ok_iff.mp hok
      obtain ⟨rfl, -⟩ := Prod.mk.inj (Except.ok.inj hpure)
      exact good_removeTask h hremove

/-- A task gets the key 1, another has the key 7 and is removed after a turn of the wheel, and a third gets
the key 2. -/
def sampleRun : List (SlotEvent ℤ Unit) :=
  [.add 2000000000 none (), .add 4000000000 (some 7) (), .tick, .tick, .tick, .remove 7,
    .add 1000000000 none ()]

/-- A wheel of three slots and a second. -/
def sampleWheel : SlotWheel ℤ Unit where
  interval := 1000000000
  slotNum := 3
  currentPos := 0
  accumulator := 0
  slots := [[], [], []]
  timer := ∅
  added := 0

end Tracked

end Vmqant.Timer
