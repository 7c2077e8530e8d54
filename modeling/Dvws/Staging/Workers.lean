import Dvws.Files.Handles
import Dvws.Handlers.Helper
import Dvws.Transition.Run

/-!
# Workers that stage the helper

The staging part of `handle_cgi_helper` for all workers of one process, call by call. The path is
made of the process identity, so it is the same for all of them: each truncates the file there,
writes the helper into it piece by piece, closes it, makes it executable, executes what the path
then leads to, and removes it.
-/

namespace Dvws.Staging

open Files Transition

/-- Where a worker is in `handle_cgi_helper`: not at it, writing the pieces that are left through
a handle at an offset, past the `fclose`, past the `chmod`, or past the `popen`. -/
inductive Worker where
  | idle
  | writing (file offset : Nat) (rest : List Bytes)
  | closed
  | executable
  | executed
  deriving DecidableEq, Repr

/-- The worker has opened the file and not executed it yet. -/
def Worker.isStaging : Worker → Bool
  | .writing .. => true
  | .closed => true
  | .executable => true
  | _ => false

/-- It has written some of it, too. -/
def Worker.hasWritten : Worker → Bool
  | .writing _ offset _ => 0 < offset
  | .closed => true
  | .executable => true
  | _ => false

/-- The files below `/tmp` and the workers. -/
structure State (ι : Type*) where
  disk : Disk Bytes
  workers : ι → Worker

variable {ι : Type*}

/-- No worker is at it, and the disk is as it may be. -/
def State.init (disk : Disk Bytes) : State ι := ⟨disk, fun _ => .idle⟩

/-- The calls of a worker. -/
inductive Label (ι : Type*) where
  | openTruncate (who : ι)
  | write (who : ι)
  | close (who : ι)
  | changeMode (who : ι)
  | execute (who : ι)
  | remove (who : ι)
  deriving DecidableEq, Repr

variable [DecidableEq ι]

/-- A worker goes on to another place, with the disk changed. -/
def State.move (s : State ι) (who : ι) (disk : Disk Bytes) (worker : Worker) : State ι :=
  ⟨disk, Function.update s.workers who worker⟩

/-- One call, with the helper that is staged. -/
def next (plat : Platform) (helper : Bytes) (s : State ι) : Label ι → Option (State ι)
  | .openTruncate who =>
      match s.workers who with
      | .idle =>
          let opened := s.disk.truncate (stagingPath plat)
          some (s.move who opened.1 (.writing opened.2 0 (chunks helper)))
      | _ => none
  | .write who =>
      match s.workers who with
      | .writing file offset (piece :: rest) =>
          some (s.move who (s.disk.write file offset piece)
            (.writing file (offset + piece.length) rest))
      | _ => none
  | .close who =>
      match s.workers who with
      | .writing _ _ [] => some (s.move who s.disk .closed)
      | _ => none
  | .changeMode who =>
      match s.workers who with
      | .closed => some (s.move who s.disk .executable)
      | _ => none
  | .execute who =>
      match s.workers who with
      | .executable => some (s.move who s.disk .executed)
      | _ => none
  | .remove who =>
      match s.workers who with
      | .executed => some (s.move who (s.disk.remove (stagingPath plat)) .idle)
      | _ => none

section Steps

variable {plat : Platform} {helper : Bytes} {s s' : State ι} {who : ι}

/-- A worker opens the file by truncating it, and has then all of the helper to write. -/
theorem open_step (h : next plat helper s (.openTruncate who) = some s') :
    s' = s.move who (s.disk.truncate (stagingPath plat)).1
      (.writing (s.disk.truncate (stagingPath plat)).2 0 (chunks helper)) := by
  simp only [next] at h
  split at h
  · exact (Option.some.inj h).symm
  · cases h

/-- A piece is written through the worker's handle. -/
theorem write_step (h : next plat helper s (.write who) = some s') :
    ∃ file offset piece rest, s.workers who = .writing file offset (piece :: rest) ∧
      s' = s.move who (s.disk.write file offset piece)
        (.writing file (offset + piece.length) rest) := by
  simp only [next] at h
  split at h
  · next file offset piece rest hwho =>
    exact ⟨file, offset, piece, rest, hwho, (Option.some.inj h).symm⟩
  · cases h

/-- The file is closed when nothing is left to write. -/
theorem close_step (h : next plat helper s (.close who) = some s') :
    ∃ file offset, s.workers who = .writing file offset [] ∧ s' = s.move who s.disk .closed := by
  simp only [next] at h
  split at h
  · next file offset hwho => exact ⟨file, offset, hwho, (Option.some.inj h).symm⟩
  · cases h

/-- A worker makes a file executable that it has closed. -/
theorem change_mode_step (h : next plat helper s (.changeMode who) = some s') :
    s.workers who = .closed ∧ s' = s.move who s.disk .executable := by
  simp only [next] at h
  split at h
  · next hwho => exact ⟨hwho, (Option.some.inj h).symm⟩
  · cases h

/-- A worker executes a file that it has made executable. -/
theorem execute_step (h : next plat helper s (.execute who) = some s') :
    s.workers who = .executable ∧ s' = s.move who s.disk .executed := by
  simp only [next] at h
  split at h
  · next hwho => exact ⟨hwho, (Option.some.inj h).symm⟩
  · cases h

/-- A worker that removes the name is idle then. -/
theorem remove_step (h : next plat helper s (.remove who) = some s') :
    s' = s.move who (s.disk.remove (stagingPath plat)) .idle := by
  simp only [next] at h
  split at h
  · exact (Option.some.inj h).symm
  · cases h

end Steps

end Dvws.Staging
