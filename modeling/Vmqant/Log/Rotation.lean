import Vmqant.Log.FileLog

/-!
# No log line is lost in a rotation

The name that the file is given is free, so nothing is overwritten, and what is written next goes to a new
file, or to the same one when the operating system does not rename it: whatever fails, the files that the log
was moved to, in order, and then the current file hold what was there and what was written.
-/

namespace Vmqant.Logs

open Lts
open Disk
open Path (Text)

variable {d₀ disk : Disk Text UInt8} {w w' : FileLogWriter} {os : Os} {old : List Text} {bs : Bytes}

/-- The log is spread over files, and a file that is open is there. -/
structure Kept (d₀ : Disk Text UInt8) (filename : Text) (w : FileLogWriter) (disk : Disk Text UInt8)
    (old : List Text) (bs : Bytes) : Prop where
  name : w.filename = filename
  spread : Spread d₀ disk filename old bs
  opened : w.fileWriter = .opened → disk filename ≠ none

namespace FileLogWriter

@[simp] theorem initFd_filename (w : FileLogWriter) (disk : Disk Text UInt8) (os : Os) :
    (w.initFd disk os).1.filename = w.filename := by
  unfold initFd
  dsimp only
  split
  · rfl
  · split
    · split <;> rfl
    · rfl

theorem startLogger_kept {filename : Text} (h : Kept d₀ filename w disk old bs) (os : Os) :
    Kept d₀ filename (w.startLogger disk os).1 (w.startLogger disk os).2.1 old bs := by
  unfold startLogger createLogFile
  obtain rfl := h.name
  split
  · exact h
  · next hcreate =>
    split at hcreate <;> cases hcreate
    exact ⟨initFd_filename _ _ _, h.spread.create, fun _ => disk.create_self_ne_none w.filename⟩

/-- `Init` opens the file, or the writer has none. -/
theorem init_kept (hw : w.fileWriter = .nil) (disk : Disk Text UInt8) (os : Os) :
    Kept disk w.filename (w.init disk os).1 (w.init disk os).2.1 [] [] := by
  have hclosed : w.split.fileWriter ≠ .opened := by
    intro h
    cases hw.symm.trans h
  exact startLogger_kept (w := w.split) ⟨rfl, Spread.refl disk w.filename, fun h => absurd h hclosed⟩ os

theorem restartLogger_kept {filename : Text} (h : Kept d₀ filename w disk old bs) (os : Os)
    (err : Option Err) :
    Kept d₀ filename (w.restartLogger disk os err).1 (w.restartLogger disk os err).2.1 old bs :=
  startLogger_kept h os

/-- A rotation moves the file to a new name, or leaves it where it is. -/
theorem doRotate_kept {filename : Text} (h : Kept d₀ filename w disk old bs) (os : Os) (logTime : Time) :
    ∃ old', Kept d₀ filename (w.doRotate disk os logTime).1 (w.doRotate disk os logTime).2.1 old' bs := by
  obtain rfl := h.name
  unfold doRotate
  split
  · exact ⟨old, h⟩
  · split
    · exact ⟨old, restartLogger_kept h os _⟩
    · next hcur =>
      split
      · exact ⟨old, h⟩
      · next fName hfind =>
        have hfree : disk fName = none := by
          have hfound := List.find?_some hfind
          exact Option.isNone_iff_eq_none.mp hfound
        split
        · have hclosed : Kept d₀ w.filename { w with fileWriter := .closed } disk old bs :=
            ⟨rfl, h.spread, nofun⟩
          exact ⟨old, restartLogger_kept hclosed os _⟩
        · have hmoved : Kept d₀ w.filename { w with fileWriter := .closed } (disk.rename w.filename fName)
              (old ++ [fName]) bs := ⟨rfl, h.spread.rotate hcur hfree, nofun⟩
          exact ⟨old ++ [fName], restartLogger_kept hmoved os _⟩

end FileLogWriter

variable {γ : Type} [DecidableEq γ]

namespace Logging

omit [DecidableEq γ] in
theorem rotateIfNeeded_kept {filename : Text} {s : Logging γ} (h : Kept d₀ filename s.w s.disk old bs)
    (day : ℤ) (logTime : Time) (os : Os) :
    ∃ old', Kept d₀ filename (s.rotateIfNeeded day logTime os).w (s.rotateIfNeeded day logTime os).disk old'
      bs := by
  unfold rotateIfNeeded
  split
  · exact FileLogWriter.doRotate_kept h os logTime
  · exact ⟨old, h⟩

theorem write_kept {filename : Text} {msg : Bytes} (h : Kept d₀ filename w disk old bs)
    (fault : Option (ℕ × String)) :
    Kept d₀ filename (w.write disk msg fault).1 (w.write disk msg fault).2.1 old
      (bs ++ if w.fileWriter = .opened then fault.elim msg fun fault => msg.take fault.1 else []) := by
  obtain rfl := h.name
  unfold FileLogWriter.write
  split
  · cases fault with
    | none => exact ⟨rfl, h.spread.append msg, fun _ => disk.append_self_ne_none _ msg⟩
    | some fault => exact ⟨rfl, h.spread.append _, fun _ => disk.append_self_ne_none _ _⟩
  · rw [List.append_nil]
    exact h

theorem step_kept {filename : Text} {s s' : Logging γ} {a : Act γ}
    (h : ∃ old, Kept d₀ filename s.w s.disk old bs) (hstep : s.step a = some s') :
    ∃ old, Kept d₀ filename s'.w s'.disk old (bs ++ s.written a) := by
  obtain ⟨old, h⟩ := h
  cases a with
  | call g now msg level original =>
    have hsame : s'.w = s.w ∧ s'.disk = s.disk := by
      unfold step at hstep
      dsimp only at hstep
      split at hstep
      · split at hstep
        · cases hstep; exact ⟨rfl, rfl⟩
        · split at hstep <;> cases hstep <;> exact ⟨rfl, rfl⟩
      · cases hstep
    rw [hsame.1, hsame.2, show s.written (.call g now msg level original) = [] from rfl, List.append_nil]
    exact ⟨old, h⟩
  | rotate g os =>
    rw [show s.written (.rotate g os) = [] from rfl, List.append_nil]
    unfold step at hstep
    dsimp only at hstep
    split at hstep <;> cases hstep
    exact rotateIfNeeded_kept h _ _ os
  | write g fault =>
    unfold step at hstep
    unfold written
    dsimp only at hstep ⊢
    split at hstep <;> cases hstep
    exact ⟨old, write_kept h fault⟩
  | daily os =>
    rw [show s.written (.daily os) = [] from rfl, List.append_nil]
    unfold step at hstep
    dsimp only at hstep
    split at hstep <;> cases hstep
    exact rotateIfNeeded_kept h _ _ os
  | destroy =>
    rw [show s.written .destroy = [] from rfl, List.append_nil]
    cases hstep
    exact ⟨old, h.name, h.spread, nofun⟩

end Logging

end Vmqant.Logs
