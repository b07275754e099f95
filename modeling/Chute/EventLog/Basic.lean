import Mathlib.Logic.Function.Basic
import Chute.Lib.Shelf

/-!
# The event log on disk

`JsonlEventSink` appends one line for each event and rotates its file by size. Place 0 is the
active file and place `i` its backup `i`. An operation that raises leaves what was done
before it, so the disk is passed on with the error. A disk also keeps every state that it
has passed through, each with the lines that were appended so far.
-/
namespace Chute

/-- What `lstat` says of a path. Through a `symlink` something is read, through a `dangling`
one nothing; `other` is a directory or a device. -/
inductive FileKind
  | regular
  | symlink
  | dangling
  | other
  deriving DecidableEq, Repr

structure LogFile where
  kind : FileKind
  /-- The owner is the user that runs the relay. -/
  owned : Bool
  /-- No mode bit is set for others than the owner. -/
  ownerOnly : Bool
  content : List UInt8
  deriving DecidableEq, Repr

abbrev Files := Nat → Option LogFile

/-- The line of an event. -/
abbrev LogLine := List UInt8

inductive LogProblem
  | symlink
  | notRegular
  | notOwned
  | notOwnerOnly
  deriving DecidableEq, Repr

inductive ParentProblem
  | unreadable
  | notDirectory
  | writable
  | notOwned
  deriving DecidableEq, Repr

inductive LogError
  | parent (problem : ParentProblem)
  | invalid (place : Nat) (problem : LogProblem)
  /-- `O_EXCL` finds the file. -/
  | exists_
  deriving DecidableEq, Repr

def LogProblem.text : LogProblem → String
  | symlink => "must not be a symlink"
  | notRegular => "must be a regular file"
  | notOwned => "must be owned by this user"
  | notOwnerOnly => "must be readable only by its owner (chmod 600)"

/-- The `ValueError` of a file that does not pass; backups are named as such. -/
def LogProblem.message (path : Nat → String) (place : Nat) (problem : LogProblem) : String :=
  (if place = 0 then "event log" else "event log backup") ++ " " ++ path place ++ " " ++ problem.text

structure Disk where
  files : Files
  /-- `_validate_parent_dir` -/
  parent : Option ParentProblem
  written : List LogLine
  seen : List (Files × List LogLine)

structure JsonlEventSink where
  maxBytes : Option Nat
  backupCount : Nat
  deriving DecidableEq, Repr

/-- The arguments of the constructor. -/
def JsonlEventSink.new (maxBytes : Option Int) (backupCount : Int) : Except String JsonlEventSink :=
  if maxBytes.any (· < 0) then .error "event log max_bytes must be a non-negative integer or None"
  else if backupCount < 0 then .error "event log backup_count must be a non-negative integer"
  else .ok ⟨if maxBytes = some 0 then none else maxBytes.map Int.toNat, backupCount.toNat⟩

/-! ### One file -/

/-- `_validate_log_file` of a path at which there is something, with `_validate_log_stat`. -/
def validateLogFile (place : Nat) (file : LogFile) : Option LogError :=
  match file.kind with
  | .symlink | .dangling => some (.invalid place .symlink)
  | .other => some (.invalid place .notRegular)
  | .regular =>
    if !file.owned then some (.invalid place .notOwned)
    else if !file.ownerOnly then some (.invalid place .notOwnerOnly)
    else none

/-- `st_size` of `stat`, `none` where it does not find the file. -/
def LogFile.size (file : LogFile) : Option Nat :=
  match file.kind with
  | .dangling => none
  | _ => some file.content.length

/-- A regular file of the relay's user. -/
def ownFile (content : List UInt8) : LogFile := ⟨.regular, true, true, content⟩

namespace Disk

/-- An operation on the files. -/
def act (d : Disk) (files : Files) : Disk :=
  { d with files := files, seen := d.seen ++ [(files, d.written)] }

def unlink (d : Disk) (place : Nat) : Disk := d.act (Function.update d.files place none)

@[simp] theorem files_unlink (d : Disk) (place : Nat) :
    (d.unlink place).files = Function.update d.files place none := rfl

/-- `os.replace` -/
def replace (d : Disk) (source target : Nat) : Disk := d.act (Shelf.move d.files source target)

@[simp] theorem files_replace (d : Disk) (source target : Nat) :
    (d.replace source target).files = Shelf.move d.files source target := rfl

/-- `_create_log_file` -/
def createLogFile (d : Disk) : Option LogError × Disk :=
  if (d.files 0).isSome then (some .exists_, d)
  else (none, d.act (Function.update d.files 0 (some (ownFile []))))

/-- `handle.write` and the close after it, of a file opened with `O_APPEND`. -/
def append (d : Disk) (line : LogLine) : Disk :=
  let files := Function.update d.files 0
    ((d.files 0).map fun file => { file with content := file.content ++ line })
  { d with files := files, written := d.written ++ [line], seen := d.seen ++ [(files, d.written ++ [line])] }

/-- What comes next is not done if this has raised. -/
def andThen (done : Option LogError × Disk) (next : Disk → Option LogError × Disk) :
    Option LogError × Disk :=
  match done with
  | (some error, d) => (some error, d)
  | (none, d) => next d

/-! ### Rotation -/

/-- The first loop of `_rotate_locked`, from a place down to 1. -/
def validateBackups (backupCount : Nat) : Nat → Disk → Option LogError × Disk
  | 0, d => (none, d)
  | index + 1, d =>
    match d.files (index + 1) with
    | none => validateBackups backupCount index d
    | some file =>
      match validateLogFile (index + 1) file with
      | some error => (some error, d)
      | none =>
        validateBackups backupCount index (if index + 1 = backupCount then d.unlink (index + 1) else d)

/-- The second loop, from a place down to 1. -/
def shiftBackups : Nat → Disk → Option LogError × Disk
  | 0, d => (none, d)
  | index + 1, d =>
    match d.files (index + 1) with
    | none => shiftBackups index d
    | some file =>
      match validateLogFile (index + 1) file with
      | some error => (some error, d)
      | none => shiftBackups index (d.replace (index + 1) (index + 2))

/-- The active file becomes the first backup. -/
def shiftActive (d : Disk) : Option LogError × Disk :=
  match d.files 0 with
  | none => (none, d)
  | some file =>
    match validateLogFile 0 file with
    | some error => (some error, d)
    | none => (none, d.replace 0 1)

/-- `_rotate_locked` -/
def rotateLocked (d : Disk) (backupCount : Nat) : Option LogError × Disk :=
  andThen (validateBackups backupCount backupCount d) fun d =>
    andThen (shiftBackups (backupCount - 1) d) fun d =>
      andThen d.shiftActive createLogFile

/-- The active file is not empty and has no room for so many bytes. -/
def full (d : Disk) (maxBytes bytes : Nat) : Bool :=
  ((d.files 0).bind LogFile.size).any fun size => size ≠ 0 && maxBytes < size + bytes

/-- `_rotate_if_needed` goes on to `_rotate_locked`. -/
def needsRotation (d : Disk) (sink : JsonlEventSink) (bytes : Nat) : Bool :=
  sink.backupCount ≠ 0 && sink.maxBytes.any fun maxBytes => d.full maxBytes bytes

/-- `_rotate_if_needed` -/
def rotateIfNeeded (d : Disk) (sink : JsonlEventSink) (bytes : Nat) : Option LogError × Disk :=
  if d.needsRotation sink bytes then d.rotateLocked sink.backupCount else (none, d)

/-! ### Events -/

/-- `_ensure_log_file` -/
def ensureLogFile (d : Disk) : Option LogError × Disk :=
  match d.parent with
  | some problem => (some (.parent problem), d)
  | none =>
    match d.files 0 with
    | none => d.createLogFile
    | some file => (validateLogFile 0 file, d)

/-- `_open_append_file` makes the same checks; a file that it creates passes the last one. -/
def openAppendFile (d : Disk) : Option LogError × Disk := d.ensureLogFile

/-- `_write_event_sync` of an event whose JSON text has these bytes. -/
def writeEventSync (d : Disk) (sink : JsonlEventSink) (json : List UInt8) : Option LogError × Disk :=
  let line := json ++ [10]
  andThen (d.rotateIfNeeded sink line.length) fun d =>
    andThen d.openAppendFile fun d => (none, d.append line)

/-- A directory without a file of the log. -/
def empty : Disk := ⟨fun _ => none, none, [], [(fun _ => none, [])]⟩

/-- A new sink on an empty directory, and events one after the other. -/
def writeEvents (sink : JsonlEventSink) (events : List (List UInt8)) : Option LogError × Disk :=
  events.foldl (fun done json => andThen done fun d => d.writeEventSync sink json) empty.ensureLogFile

end Disk

end Chute
