import Vmqant.Common.Counts
import Vmqant.Common.Disk
import Vmqant.Common.Lts
import Vmqant.Common.Path

/-!
# The file logger and its rotation

Reference: `log/beego/file.go`; `log/beego/logger.go`, `FormatTimeHeader`.

Goroutines call `WriteMsg`, which looks under a read lock whether the file is to be rotated, takes the lock
to rotate it if it still is, and takes the lock again to write: other goroutines come in between. Rotating
renames the file and opens a new one. What the operating system answers, and when, is part of the action; a
file that exists is taken to be found by `Lstat`, and nobody else touches the files. Permissions are parsed
and otherwise left out, as is `deleteOldLog`, which deletes nothing.
-/

namespace Vmqant.Logs

open Lts
open Path (Text)

abbrev Bytes := List UInt8

/-- A time, and how `FormatTime` prints it. -/
structure Time where
  year : ℕ
  month : ℕ
  day : ℕ
  header : Bytes := []
deriving DecidableEq

/-- `fileWriter`. -/
inductive Handle where
  | nil
  | opened
  | closed
deriving DecidableEq

inductive Err where
  /-- What the operating system says. -/
  | os (text : String)
  | notExist (name : Text)
  | closed
  /-- A permission that `ParseInt` does not take. -/
  | perm (s : Text)
  /-- `"get stat err: %s"` -/
  | stat (text : String)
  /-- `"Rotate: Cannot find free log number to rename %s"` -/
  | noFreeNumber (filename : Text)
  /-- `"Rotate StartLogger: %s"` -/
  | startLogger (err : Err)
  /-- `"Rotate: %s"` -/
  | rotate (err : Err)

/-- The answers of the operating system to one rotation: the time, and the errors. -/
structure Os where
  now : Time
  openFile : Option String := none
  stat : Option String := none
  lines : Option String := none
  rename : Option String := none
  chmod : Option String := none

structure FileLogWriter where
  filename : Text
  fileWriter : Handle := .nil
  maxLines : ℤ := 0
  maxLinesCurLines : ℤ := 0
  maxSize : ℤ := 0
  maxSizeCurSize : ℤ := 0
  daily : Bool := true
  dailyOpenDate : ℤ := 0
  dailyOpenTime : Time := ⟨1, 1, 1, []⟩
  rotate : Bool := true
  level : ℤ := 7
  minLevel : ℤ := 0
  perm : Text := ['0', '6', '6', '0']
  rotatePerm : Text := ['0', '4', '4', '0']
  fileNameOnly : Text := []
  suffix : Text := []

/-- `strconv.ParseInt(s, 8, 64)`, without its error. -/
def parseInt8 (s : Text) : Option ℤ :=
  let (neg, digits) := match s with
    | '-' :: ds => (true, ds)
    | '+' :: ds => (false, ds)
    | ds => (false, ds)
  if digits ≠ [] ∧ digits.all (fun c => '0' ≤ c ∧ c ≤ '7') then
    let n := digits.foldl (fun n c => 8 * n + (c.toNat - '0'.toNat)) 0
    if neg then if n ≤ 2 ^ 63 then some (-n) else none
    else if n < 2 ^ 63 then some n else none
  else none

/-- `%0*d`. -/
def pad (width n : ℕ) : Text := (Nat.toDigits 10 n).leftpad width '0'

/-- `Format("2006-01-02")`. -/
def Time.date (t : Time) : Text := pad 4 t.year ++ '-' :: pad 2 t.month ++ '-' :: pad 2 t.day

/-- `filepath.Ext`: from the last dot of the last element on. -/
def ext (path : Text) : Text :=
  let base := path.reverse.takeWhile (· ≠ '/')
  if '.' ∈ base then '.' :: (base.takeWhile (· ≠ '.')).reverse else []

namespace FileLogWriter

/-- `needRotate`; the size of the message is not looked at. -/
def needRotate (w : FileLogWriter) (day : ℤ) : Bool :=
  (w.maxLines > 0 ∧ w.maxLinesCurLines ≥ w.maxLines) ∨ (w.maxSize > 0 ∧ w.maxSizeCurSize ≥ w.maxSize) ∨
    (w.daily ∧ day ≠ w.dailyOpenDate)

/-- `createLogFile`. -/
def createLogFile (w : FileLogWriter) (disk : Disk Text UInt8) (os : Os) : Except Err (Disk Text UInt8) :=
  match parseInt8 w.perm, os.openFile with
  | none, _ => .error (.perm w.perm)
  | some _, some text => .error (.os text)
  | some _, none => .ok (disk.create w.filename)

/-- `initFd`. The goroutine of `dailyRotate` that it starts is an action of its own. -/
def initFd (w : FileLogWriter) (disk : Disk Text UInt8) (os : Os) : FileLogWriter × Option Err :=
  match os.stat with
  | some text => (w, some (.stat text))
  | none =>
    let fd := disk.content w.filename
    let w := { w with
      maxSizeCurSize := fd.length, dailyOpenTime := os.now, dailyOpenDate := os.now.day, maxLinesCurLines := 0 }
    if fd.length > 0 ∧ w.maxLines > 0 then
      match os.lines with
      | some text => (w, some (.os text))
      | none => ({ w with maxLinesCurLines := fd.count '\n'.toUInt8 }, none)
    else (w, none)

/-- `startLogger`. -/
def startLogger (w : FileLogWriter) (disk : Disk Text UInt8) (os : Os) :
    FileLogWriter × Disk Text UInt8 × Option Err :=
  match w.createLogFile disk os with
  | .error err => (w, disk, some err)
  | .ok disk =>
    let started := initFd { w with fileWriter := .opened } disk os
    (started.1, disk, started.2)

/-- The name without its extension, and the extension, or `.log`. -/
def split (w : FileLogWriter) : FileLogWriter :=
  let suffix := ext w.filename
  { w with
    fileNameOnly := w.filename.take (w.filename.length - suffix.length)
    suffix := if suffix = [] then ['.', 'l', 'o', 'g'] else suffix }

/-- `Init`, when the config has been read. -/
def init (w : FileLogWriter) (disk : Disk Text UInt8) (os : Os) : FileLogWriter × Disk Text UInt8 × Option Err :=
  w.split.startLogger disk os

/-- The names that `doRotate` tries. -/
def numbered (w : FileLogWriter) (t : Time) : List Text :=
  (List.range' 1 999).map fun num => w.fileNameOnly ++ '.' :: t.date ++ '.' :: pad 3 num ++ w.suffix

def candidates (w : FileLogWriter) (logTime : Time) : List Text :=
  if w.maxLines > 0 ∨ w.maxSize > 0 then w.numbered logTime
  else (w.fileNameOnly ++ '.' :: w.dailyOpenTime.date ++ w.suffix) :: w.numbered w.dailyOpenTime

/-- From `RESTART_LOGGER` on. -/
def restartLogger (w : FileLogWriter) (disk : Disk Text UInt8) (os : Os) (err : Option Err) :
    FileLogWriter × Disk Text UInt8 × Option Err :=
  let (w, disk, startLoggerErr) := w.startLogger disk os
  (w, disk, (startLoggerErr.map .startLogger).or (err.map .rotate))

/-- `doRotate`. -/
def doRotate (w : FileLogWriter) (disk : Disk Text UInt8) (os : Os) (logTime : Time) :
    FileLogWriter × Disk Text UInt8 × Option Err :=
  if parseInt8 w.rotatePerm = none then (w, disk, some (.perm w.rotatePerm))
  else if disk w.filename = none then w.restartLogger disk os (some (.notExist w.filename))
  else
    match (w.candidates logTime).find? fun fName => (disk fName).isNone with
    | none => (w, disk, some (.noFreeNumber w.filename))
    | some fName =>
      let w := { w with fileWriter := .closed }
      match os.rename with
      | some text => w.restartLogger disk os (some (.os text))
      | none => w.restartLogger (disk.rename w.filename fName) os (os.chmod.map .os)

/-- `maxLinesCurLines++` and `maxSizeCurSize += len(msg)`. -/
def counted (w : FileLogWriter) (msg : Bytes) : FileLogWriter :=
  { w with maxLinesCurLines := w.maxLinesCurLines + 1, maxSizeCurSize := w.maxSizeCurSize + msg.length }

/-- What is written and counted of `msg` when the lock is held: all of it, or the bytes before the error. -/
def write (w : FileLogWriter) (disk : Disk Text UInt8) (msg : Bytes) (fault : Option (ℕ × String)) :
    FileLogWriter × Disk Text UInt8 × Option Err :=
  if w.fileWriter = .opened then
    match fault with
    | none => (w.counted msg, disk.append w.filename msg, none)
    | some (n, text) => (w, disk.append w.filename (msg.take n), some (.os text))
  else (w, disk, some .closed)

end FileLogWriter

/-- Where a call of `WriteMsg` is. -/
inductive Pc where
  | idle
  /-- Before the lock for `doRotate`. -/
  | rotating (now : Time) (msg : Bytes)
  /-- Before the lock for `Write`. -/
  | writing (msg : Bytes)

/-- A writer that goroutines `γ` share. -/
structure Logging (γ : Type) where
  w : FileLogWriter
  disk : Disk Text UInt8
  pc : γ → Pc

inductive Act (γ : Type) where
  /-- `WriteMsg`, or `WriteOriginalMsg`, up to the point where the read lock is let go. -/
  | call (g : γ) (now : Time) (msg : Bytes) (level : ℤ) (original : Bool)
  | rotate (g : γ) (os : Os)
  | write (g : γ) (fault : Option (ℕ × String))
  /-- The timer of a `dailyRotate` fires. -/
  | daily (os : Os)
  | destroy

variable {γ : Type}

/-- What `WriteMsg` writes, or `WriteOriginalMsg`. -/
def textLine (now : Time) (msg : Bytes) (original : Bool) : Bytes :=
  (if original then msg else now.header ++ msg) ++ ['\n'.toUInt8]

namespace Logging

/-- After `Init`. -/
def start (w : FileLogWriter) (disk : Disk Text UInt8) (os : Os) : Logging γ where
  w := (w.init disk os).1
  disk := (w.init disk os).2.1
  pc := fun _ => .idle

/-- The second look, with the lock, and the rotation. -/
def rotateIfNeeded (s : Logging γ) (day : ℤ) (logTime : Time) (os : Os) : Logging γ :=
  if s.w.needRotate day then
    let rotated := s.w.doRotate s.disk os logTime
    { s with w := rotated.1, disk := rotated.2.1 }
  else s

variable [DecidableEq γ]

def setPc (s : Logging γ) (g : γ) (pc : Pc) : Logging γ := { s with pc := Function.update s.pc g pc }

def step (s : Logging γ) : Act γ → Option (Logging γ)
  | .call g now msg level original =>
    match s.pc g with
    | .idle =>
      if level > s.w.level ∨ level < s.w.minLevel then some s
      else
        let line := textLine now msg original
        if s.w.rotate && s.w.needRotate now.day then some (s.setPc g (.rotating now line))
        else some (s.setPc g (.writing line))
    | _ => none
  | .rotate g os =>
    match s.pc g with
    | .rotating now msg => some ((s.rotateIfNeeded now.day now os).setPc g (.writing msg))
    | _ => none
  | .write g fault =>
    match s.pc g with
    | .writing msg =>
      let done := s.w.write s.disk msg fault
      some ({ s with w := done.1, disk := done.2.1 }.setPc g .idle)
    | _ => none
  | .daily os => if s.w.daily then some (s.rotateIfNeeded os.now.day os.now os) else none
  | .destroy => some { s with w := { s.w with fileWriter := .closed } }

/-- The bytes that an action gives to the file. -/
def written (s : Logging γ) : Act γ → Bytes
  | .write g fault =>
    match s.pc g with
    | .writing msg =>
      if s.w.fileWriter = .opened then fault.elim msg fun fault => msg.take fault.1 else []
    | _ => []
  | _ => []

end Logging

end Vmqant.Logs
