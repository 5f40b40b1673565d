import Vmqant.Log.FileLog

/-!
# How long the log files get

A file is rotated when its lines or bytes have reached the limit, which each goroutine checks before it
writes: as many goroutines as there are may have passed the check when the limit is reached.
-/

namespace Vmqant.Logs

open Lts
open Path (Text)

/-- What a limit is about. -/
inductive Gauge where
  | lines
  | size

namespace Gauge

def count : Gauge → Bytes → ℕ
  | .lines, text => text.count '\n'.toUInt8
  | .size, text => text.length

def counter : Gauge → FileLogWriter → ℤ
  | .lines, w => w.maxLinesCurLines
  | .size, w => w.maxSizeCurSize

def limit : Gauge → FileLogWriter → ℤ
  | .lines, w => w.maxLines
  | .size, w => w.maxSize

/-- A message adds no more than `most` to a file, and the counter is right about it: for the lines it must be
one. -/
def fits (most : ℕ) : Gauge → Bytes → Bool
  | .lines, text => count .lines text ≤ most ∧ count .lines text = 1
  | .size, text => count .size text ≤ most

@[simp] theorem count_nil (k : Gauge) : k.count [] = 0 := by cases k <;> rfl

theorem count_append (k : Gauge) (a b : Bytes) : k.count (a ++ b) = k.count a + k.count b := by
  cases k with
  | lines => exact List.count_append
  | size => exact List.length_append

theorem count_le_of_fits {k : Gauge} {most : ℕ} {text : Bytes} (h : k.fits most text = true) :
    k.count text ≤ most := by
  cases k with
  | lines => exact (of_decide_eq_true h).1
  | size => exact of_decide_eq_true h

/-- A file that is not to be rotated has room. -/
theorem counter_lt_of_needRotate {k : Gauge} {w : FileLogWriter} {day : ℤ} (hlimit : 0 < k.limit w)
    (h : w.needRotate day = false) : k.counter w < k.limit w := by
  have hnot := of_decide_eq_false h
  obtain ⟨hlines, hsize, -⟩ : ¬ (w.maxLines > 0 ∧ w.maxLinesCurLines ≥ w.maxLines) ∧
      ¬ (w.maxSize > 0 ∧ w.maxSizeCurSize ≥ w.maxSize) ∧ _ := by
    rw [not_or, not_or] at hnot
    exact hnot
  cases k with
  | lines => exact not_le.mp fun hle => hlines ⟨hlimit, hle⟩
  | size => exact not_le.mp fun hle => hsize ⟨hlimit, hle⟩

end Gauge

namespace FileLogWriter

variable {w : FileLogWriter} {disk : Disk Text UInt8} {os : Os} {k : Gauge} {most : ℕ}

/-- The writer that has opened a file with the content `fd`. -/
def reopened (w : FileLogWriter) (fd : Bytes) (now : Time) : FileLogWriter :=
  { w with
    fileWriter := .opened
    maxSizeCurSize := fd.length
    dailyOpenTime := now
    dailyOpenDate := now.day
    maxLinesCurLines := if fd.length > 0 ∧ w.maxLines > 0 then fd.count '\n'.toUInt8 else 0 }

theorem startLogger_ok (h : (w.startLogger disk os).2.2 = none) :
    w.startLogger disk os =
      (w.reopened (disk.content w.filename) os.now, disk.create w.filename, none) := by
  have hcontent : (disk.create w.filename).content w.filename = disk.content w.filename :=
    Disk.content_update_self
  unfold startLogger at h ⊢
  split at h
  · cases h
  · next hcreate =>
    dsimp only at h ⊢
    unfold createLogFile at hcreate
    split at hcreate <;> cases hcreate
    unfold initFd at h ⊢
    split at h
    · cases h
    · dsimp only at h ⊢
      rw [hcontent] at h ⊢
      split at h
      · next hcount =>
        split at h
        · cases h
        · next hlines =>
          rw [if_pos hcount, reopened, if_pos hcount]
      · next hcount => rw [if_neg hcount, reopened, if_neg hcount]

/-- What a rotation does that succeeds. -/
theorem doRotate_ok {logTime : Time} (h : (w.doRotate disk os logTime).2.2 = none) :
    ∃ fName, disk w.filename ≠ none ∧ disk fName = none ∧
      (w.doRotate disk os logTime).1 = w.reopened [] os.now ∧
      (w.doRotate disk os logTime).2.1 = (disk.rename w.filename fName).create w.filename := by
  have hrestart : ∀ {w : FileLogWriter} {disk : Disk Text UInt8} {err : Option Err},
      (w.restartLogger disk os err).2.2 = none → err = none ∧ (w.startLogger disk os).2.2 = none := by
    intro w disk err hnone
    obtain ⟨hstart, herr⟩ := Option.or_eq_none_iff.mp hnone
    exact ⟨Option.map_eq_none_iff.mp herr, Option.map_eq_none_iff.mp hstart⟩
  unfold doRotate at h ⊢
  split at h
  · cases h
  · next hperm =>
    split at h
    · cases (hrestart h).1
    · next hcur =>
      split at h
      · cases h
      · next fName hfind =>
        have hfree : disk fName = none := by
          have hfound := List.find?_some hfind
          exact Option.isNone_iff_eq_none.mp hfound
        have hne : w.filename ≠ fName := fun heq => hcur (heq ▸ hfree)
        rw [if_neg hperm, if_neg hcur]
        dsimp only at h ⊢
        split at h
        · cases (hrestart h).1
        · next hrename =>
          have hstart := startLogger_ok (hrestart h).2
          have hempty : (disk.rename w.filename fName).content w.filename = [] := by
            unfold Disk.content
            rw [Disk.rename_self hne]
            rfl
          rw [hempty] at hstart
          exact ⟨fName, hcur, hfree, congrArg Prod.fst hstart, congrArg (fun r => r.2.1) hstart⟩

theorem counter_reopened (hlimit : 0 < k.limit w) (fd : Bytes) (now : Time) :
    k.counter (w.reopened fd now) = k.count fd := by
  cases k with
  | size => rfl
  | lines =>
    show (if fd.length > 0 ∧ w.maxLines > 0 then (fd.count '\n'.toUInt8 : ℤ) else 0) = _
    split
    · rfl
    · next h =>
      have hlen : fd.length = 0 := Nat.eq_zero_of_not_pos fun hpos => h ⟨hpos, hlimit⟩
      rw [List.length_eq_zero_iff.mp hlen]
      rfl

end FileLogWriter

/-! ## The invariant -/

/-- The most that a call of `WriteMsg` has passed the check with, and has not written yet. -/
def Pc.pending (k : Gauge) : Pc → ℕ
  | .writing msg => k.count msg
  | .idle | .rotating _ _ => 0

/-- The message that a call of `WriteMsg` is to write. -/
def Pc.msg : Pc → Option Bytes
  | .writing msg | .rotating _ msg => some msg
  | .idle => none

variable {γ : Type}

namespace Logging

variable {k : Gauge} {most bound : ℕ} {d₀ : Disk Text UInt8} {s s' : Logging γ}

/-- A message that fits, a rotation that succeeds, and a write that does. -/
def goesWell (k : Gauge) (most : ℕ) (s : Logging γ) : Act γ → Bool
  | .call _ now msg _ original => k.fits most (textLine now msg original)
  | .rotate g os =>
    match s.pc g with
    | .rotating now _ => !s.w.needRotate now.day || (s.w.doRotate s.disk os now).2.2.isNone
    | _ => true
  | .write _ fault => fault.isNone
  | .daily os => !s.w.needRotate os.now.day || (s.w.doRotate s.disk os os.now).2.2.isNone
  | .destroy => true

/-- The counter is right, and neither a file of the logger nor the current file with what is still to come is
longer than `bound`. -/
structure Bounded [Fintype γ] (k : Gauge) (most bound : ℕ) (d₀ : Disk Text UInt8) (w : FileLogWriter)
    (s : Logging γ) : Prop where
  name : s.w.filename = w.filename
  limit : k.limit s.w = k.limit w
  rotate : s.w.rotate = true
  counter : k.counter s.w = k.count (s.disk.content w.filename)
  room : k.count (s.disk.content w.filename) + ∑ g, (s.pc g).pending k ≤ bound
  fits : ∀ g msg, (s.pc g).msg = some msg → k.fits most msg = true
  files : ∀ f, f ≠ w.filename → d₀ f = none → k.count (s.disk.content f) ≤ bound

theorem pending_le_of_fits {pc : Pc} (h : ∀ msg, pc.msg = some msg → k.fits most msg = true) :
    pc.pending k ≤ most := by
  cases pc with
  | writing msg => exact Gauge.count_le_of_fits (h msg rfl)
  | idle => exact Nat.zero_le _
  | rotating now msg => exact Nat.zero_le _

variable [DecidableEq γ] [Fintype γ] {w : FileLogWriter}

omit [DecidableEq γ] in
/-- While the check passes there is room for one message of each goroutine. -/
theorem sum_pending_le {pc : γ → Pc} (h : ∀ g, (pc g).pending k ≤ most) :
    ∑ g, (pc g).pending k ≤ Fintype.card γ * most := by
  have hsum := Finset.sum_le_card_nsmul Finset.univ (fun g => (pc g).pending k) most fun g _ => h g
  simpa using hsum

omit [Fintype γ] in
theorem fits_setPc (g : γ) (pc : Pc) (h : ∀ g msg, (s.pc g).msg = some msg → k.fits most msg = true)
    (hpc : ∀ msg, pc.msg = some msg → k.fits most msg = true) (g' : γ) (msg : Bytes)
    (hmsg : ((s.setPc g pc).pc g').msg = some msg) : k.fits most msg = true := by
  by_cases hg : g' = g
  · subst hg
    rw [show (s.setPc g' pc).pc g' = pc from Function.update_self _ _ _] at hmsg
    exact hpc msg hmsg
  · rw [show (s.setPc g pc).pc g' = s.pc g' from Function.update_of_ne hg _ _] at hmsg
    exact h g' msg hmsg

theorem sum_pending_setPc (k : Gauge) (s : Logging γ) (g : γ) (pc : Pc) :
    ∑ g', ((s.setPc g pc).pc g').pending k + (s.pc g).pending k
      = ∑ g', (s.pc g').pending k + pc.pending k := Counts.sum_update (Pc.pending k) s.pc g pc

omit [DecidableEq γ] in
/-- A file that has passed the check has room for one message of each goroutine. -/
theorem Bounded.room_of_lt (h : Bounded k most bound d₀ w s) (hlt : k.counter s.w < k.limit w)
    (hbound : (k.limit w).toNat - 1 + Fintype.card γ * most ≤ bound) {pc : γ → Pc}
    (hpc : ∀ g, (pc g).pending k ≤ most) :
    k.count (s.disk.content w.filename) + ∑ g, (pc g).pending k ≤ bound := by
  have hsum := sum_pending_le hpc
  rw [h.counter] at hlt
  omega

omit [DecidableEq γ] in
theorem Bounded.rotateIfNeeded (h : Bounded k most bound d₀ w s) (hlimit : 0 < k.limit w)
    (hbound : (k.limit w).toNat - 1 + Fintype.card γ * most ≤ bound) {day : ℤ} {logTime : Time} {os : Os}
    (hwell : (!s.w.needRotate day || (s.w.doRotate s.disk os logTime).2.2.isNone) = true) :
    Bounded k most bound d₀ w (s.rotateIfNeeded day logTime os) ∧
      k.counter (s.rotateIfNeeded day logTime os).w < k.limit w := by
  have hlimit' : 0 < k.limit s.w := h.limit ▸ hlimit
  unfold Logging.rotateIfNeeded
  split
  · next hneed =>
    rw [hneed, Bool.not_true, Bool.false_or, Option.isNone_iff_eq_none] at hwell
    obtain ⟨fName, hcur, hfree, hw, hdisk⟩ := FileLogWriter.doRotate_ok hwell
    rw [h.name] at hcur hdisk
    have hne : w.filename ≠ fName := fun heq => hcur (heq ▸ hfree)
    have hzero : k.counter (s.w.reopened [] os.now) = 0 := by
      rw [FileLogWriter.counter_reopened hlimit', Gauge.count_nil, Nat.cast_zero]
    have hempty : ((s.disk.rename w.filename fName).create w.filename).content w.filename = [] := by
      unfold Disk.create Disk.content
      rw [Function.update_self, Option.getD_some, Disk.rename_self hne]
      rfl
    have hsum := sum_pending_le fun g => pending_le_of_fits (h.fits g)
    refine ⟨⟨?_, ?_, ?_, ?_, ?_, h.fits, ?_⟩, ?_⟩ <;> dsimp only
    · rw [hw]
      exact h.name
    · rw [hw, ← h.limit]
      cases k <;> rfl
    · rw [hw]
      exact h.rotate
    · rw [hw, hdisk, hzero, hempty, Gauge.count_nil, Nat.cast_zero]
    · rw [hdisk, hempty, Gauge.count_nil]
      omega
    · -- the file that was moved is as long as it was
      intro f hf hf₀
      rw [hdisk, show ((s.disk.rename w.filename fName).create w.filename).content f
        = (s.disk.rename w.filename fName).content f from Disk.content_update_of_ne hf]
      by_cases hfName : f = fName
      · subst hfName
        rw [show (s.disk.rename w.filename f).content f = s.disk.content w.filename from
          Disk.content_update_self]
        have hroom := h.room
        omega
      · have hother := h.files f hf hf₀
        unfold Disk.content at hother ⊢
        rwa [Disk.rename_of_ne hf hfName]
    · rw [hw, hzero]
      exact hlimit
  · next hneed =>
    have hlt := Gauge.counter_lt_of_needRotate hlimit' (Bool.eq_false_iff.mpr hneed)
    exact ⟨h, h.limit ▸ hlt⟩

/-- The counter counts what is written. -/
theorem counter_counted {v : FileLogWriter} {msg : Bytes} (hfits : k.fits most msg = true) :
    k.counter (v.counted msg) = k.counter v + k.count msg := by
  cases k with
  | lines =>
    have hone : Gauge.lines.count msg = 1 := (of_decide_eq_true hfits).2
    rw [hone]
    rfl
  | size => rfl

/-- A message that has been written is in the file and is not pending any more. -/
theorem Bounded.write (h : Bounded k most bound d₀ w s) {g : γ} {msg : Bytes} (hpc : s.pc g = .writing msg) :
    Bounded k most bound d₀ w
      ({ s with w := (s.w.write s.disk msg none).1, disk := (s.w.write s.disk msg none).2.1 }.setPc g .idle) := by
  have hsum := sum_pending_setPc k s g .idle
  rw [hpc, show (Pc.writing msg).pending k = k.count msg from rfl,
    show Pc.idle.pending k = 0 from rfl] at hsum
  have hroom := h.room
  have hfits := fits_setPc g .idle h.fits (fun _ hidle => absurd hidle nofun)
  unfold FileLogWriter.write
  split
  · have hmsg : k.fits most msg = true := h.fits g msg (by rw [hpc]; rfl)
    have hcontent : (s.disk.append w.filename msg).content w.filename
        = s.disk.content w.filename ++ msg := Disk.content_update_self
    have hcount := k.count_append (s.disk.content w.filename) msg
    dsimp only
    rw [h.name]
    constructor
    · exact h.name
    · rw [← h.limit]
      cases k <;> rfl
    · exact h.rotate
    · show k.counter (s.w.counted msg) = k.count ((s.disk.append w.filename msg).content w.filename)
      rw [counter_counted hmsg, h.counter, hcontent, hcount, Nat.cast_add]
    · show k.count ((s.disk.append w.filename msg).content w.filename)
        + ∑ g', ((s.setPc g .idle).pc g').pending k ≤ bound
      rw [hcontent, hcount]
      omega
    · exact hfits
    · intro f hf hf₀
      show k.count ((s.disk.append w.filename msg).content f) ≤ bound
      rw [show (s.disk.append w.filename msg).content f = s.disk.content f from
        Disk.content_update_of_ne hf]
      exact h.files f hf hf₀
  · refine ⟨h.name, h.limit, h.rotate, h.counter, ?_, hfits, h.files⟩
    show k.count (s.disk.content w.filename) + ∑ g', ((s.setPc g .idle).pc g').pending k ≤ bound
    omega

/-- A goroutine that has passed the check goes on to write. -/
theorem Bounded.enter (h : Bounded k most bound d₀ w s) (hlt : k.counter s.w < k.limit w)
    (hbound : (k.limit w).toNat - 1 + Fintype.card γ * most ≤ bound) (g : γ) {msg : Bytes}
    (hmsg : k.fits most msg = true) : Bounded k most bound d₀ w (s.setPc g (.writing msg)) := by
  have hpc : ∀ m, (Pc.writing msg).msg = some m → k.fits most m = true := by
    intro m hm
    rwa [← Option.some.inj hm]
  have hfits := fits_setPc g (.writing msg) h.fits hpc
  have hroom := h.room_of_lt hlt hbound fun g' => pending_le_of_fits (hfits g')
  exact ⟨h.name, h.limit, h.rotate, h.counter, hroom, hfits, h.files⟩

theorem Bounded.step (h : Bounded k most bound d₀ w s) (hlimit : 0 < k.limit w)
    (hbound : (k.limit w).toNat - 1 + Fintype.card γ * most ≤ bound) {a : Act γ}
    (hwell : s.goesWell k most a = true) (hstep : s.step a = some s') : Bounded k most bound d₀ w s' := by
  have hlimit' : 0 < k.limit s.w := h.limit ▸ hlimit
  cases a with
  | call g now msg level original =>
    unfold Logging.step at hstep
    dsimp only at hstep
    split at hstep
    · next hpc =>
      split at hstep
      · cases hstep
        exact h
      · rw [h.rotate, Bool.true_and] at hstep
        split at hstep <;> cases hstep
        · -- nothing is pending before the rotation
          have hsum := sum_pending_setPc k s g (.rotating now (textLine now msg original))
          rw [hpc, show Pc.idle.pending k = 0 from rfl, show Pc.pending k (.rotating _ _) = 0 from rfl,
            Nat.add_zero, Nat.add_zero] at hsum
          have hfits := fits_setPc g (.rotating now (textLine now msg original)) h.fits
            fun m hm => Option.some.inj hm ▸ hwell
          refine ⟨h.name, h.limit, h.rotate, h.counter, ?_, hfits, h.files⟩
          exact hsum ▸ h.room
        · next hneed =>
          have hlt := Gauge.counter_lt_of_needRotate hlimit' (Bool.eq_false_iff.mpr hneed)
          exact h.enter (h.limit ▸ hlt) hbound g hwell
    · cases hstep
  | rotate g os =>
    unfold Logging.step at hstep
    unfold goesWell at hwell
    dsimp only at hstep hwell
    split at hstep <;> cases hstep
    next now msg hpc =>
      rw [hpc] at hwell
      obtain ⟨hrotated, hlt⟩ := h.rotateIfNeeded hlimit hbound hwell
      exact hrotated.enter hlt hbound g (h.fits g msg (by rw [hpc]; rfl))
  | write g fault =>
    unfold Logging.step at hstep
    dsimp only at hstep
    split at hstep <;> cases hstep
    next hpc =>
      obtain rfl : fault = none := Option.isNone_iff_eq_none.mp hwell
      exact h.write hpc
  | daily os =>
    unfold Logging.step at hstep
    dsimp only at hstep
    split at hstep <;> cases hstep
    exact (h.rotateIfNeeded hlimit hbound hwell).1
  | destroy =>
    cases hstep
    refine ⟨h.name, ?_, h.rotate, ?_, h.room, h.fits, h.files⟩
    · rw [← h.limit]
      cases k <;> rfl
    · rw [← h.counter]
      cases k <;> rfl

omit [DecidableEq γ] in
theorem bounded_start {os : Os} (hrotate : w.rotate = true) (hlimit : 0 < k.limit w)
    (hinit : (w.init d₀ os).2.2 = none) (hbound : k.count (d₀.content w.filename) ≤ bound) :
    Bounded k most bound d₀ w (start w d₀ os : Logging γ) := by
  have hlimit' : k.limit w.split = k.limit w := by cases k <;> rfl
  have hstart : w.init d₀ os = (w.split.reopened (d₀.content w.filename) os.now, d₀.create w.filename, none) :=
    FileLogWriter.startLogger_ok hinit
  have hcontent : (d₀.create w.filename).content w.filename = d₀.content w.filename := Disk.content_update_self
  unfold start
  rw [hstart]
  refine ⟨rfl, ?_, hrotate, ?_, ?_, fun g msg hmsg => ?_, fun f hf hf₀ => ?_⟩ <;> dsimp only at *
  · rw [← hlimit']
    cases k <;> rfl
  · rw [FileLogWriter.counter_reopened (hlimit' ▸ hlimit), hcontent]
  · have hnone : ∑ _g : γ, Pc.idle.pending k = 0 := Finset.sum_eq_zero fun _ _ => rfl
    rw [hcontent, hnone]
    exact hbound
  · cases hmsg
  · have hempty : (d₀.create w.filename).content f = [] := by
      rw [show (d₀.create w.filename).content f = d₀.content f from Disk.content_update_of_ne hf]
      unfold Disk.content
      rw [hf₀]
      rfl
    rw [hempty, Gauge.count_nil]
    exact Nat.zero_le _

end Logging

end Vmqant.Logs
