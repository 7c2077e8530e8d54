import Mathlib.Logic.Function.Basic
import Dvws.Handlers.Logs
import Dvws.Transition.Run

/-!
# Workers that write the access log

The file-system calls that `log_request_response` makes without a sink, one by one: the `stat` of
`rotate_log_if_needed`, its `remove` and its `rename`s when the log has grown, and the append of
the entry. Nothing locks them together, so the calls of all workers interleave in any order. The
log files are numbered by age; age 0 is the log itself.
-/

namespace Dvws.Rotation

open Transition

/-- `kRotationKeep`. -/
def rotationKeep : Nat := 3

/-- The path of the log file of this age. -/
def agedPath (age : Nat) : Bytes := if age = 0 then logPath else rotatedPath age

/-- A file-system call. `rename age` renames the file of this age to that of the next. -/
inductive Call where
  | stat
  | remove
  | rename (age : Fin rotationKeep)
  | append
  deriving DecidableEq, Repr

/-- The calls of `rotate_log_if_needed` on a log that has grown: the oldest file is removed, and
the others are renamed from the oldest to the log itself. -/
def rotationCalls : List Call := .remove :: (List.finRange rotationKeep).reverse.map .rename

/-- What a call of the rotation does to the outside. -/
def Call.event : Call → Option Event
  | .remove => some (.removeFile (agedPath rotationKeep))
  | .rename age => some (.renameFile (agedPath age.val) (agedPath (age.val + 1)))
  | .stat => none
  | .append => none

/-- These are the calls that a request on its own makes. -/
theorem rotate_log_if_needed_eq (plat : Platform) :
    rotateLogIfNeeded plat =
      match Files.stat plat.files plat.cwd logPath with
      | none => pure ()
      | some (_, node) =>
          if node.size < maxLogBytes then pure ()
          else Effect.emitAll (rotationCalls.filterMap Call.event) := by
  have hcalls : rotationCalls.filterMap Call.event =
      [.removeFile (rotatedPath 3), .renameFile (rotatedPath 2) (rotatedPath 3),
        .renameFile (rotatedPath 1) (rotatedPath 2), .renameFile logPath (rotatedPath 1)] := by
    decide +kernel
  rw [hcalls]
  rfl

/-- The log files by age, with the entries in them, and the calls that each worker has still to
make. -/
structure State (ι : Type*) where
  files : Nat → Option (List Bytes)
  pending : ι → List Call

variable {ι : Type*}

/-- No log has been written and no worker is at work. -/
def State.init : State ι := ⟨fun _ => none, fun _ => []⟩

/-- The entries in the log file of an age; an absent file reads as empty. -/
def State.entries (s : State ι) (age : Nat) : List Bytes := (s.files age).getD []

/-- `stat` succeeds on the log and reports at least `kMaxLogBytes`. -/
def State.hasGrown (s : State ι) : Bool :=
  (s.files 0).any fun entries => maxLogBytes ≤ (entries.map List.length).sum

/-- The files after a call; what an append writes is its step's own. -/
def State.effect (s : State ι) : Call → Nat → Option (List Bytes)
  | .remove => Function.update s.files rotationKeep none
  | .rename age =>
      match s.files age.val with
      | none => s.files
      | some entries =>
          Function.update (Function.update s.files age.val none) (age.val + 1) (some entries)
  | _ => s.files

/-- The calls still to make after a call; `stat` decides about the rotation. -/
def State.remaining (s : State ι) (rest : List Call) : Call → List Call
  | .stat => (if s.hasGrown then rotationCalls else []) ++ rest
  | _ => rest

/-- A step: a worker takes up a request that is to be logged, makes its next call before the
append, or appends its entry. -/
inductive Label (ι : Type*) where
  | begin (who : ι)
  | call (who : ι)
  | append (who : ι) (entry : Bytes)
  deriving DecidableEq, Repr

variable [DecidableEq ι]

/-- One step. -/
def next (s : State ι) : Label ι → Option (State ι)
  | .begin who =>
      match s.pending who with
      | [] => some { s with pending := Function.update s.pending who [.stat, .append] }
      | _ => none
  | .call who =>
      match s.pending who with
      | [] => none
      | .append :: _ => none
      | call :: rest =>
          some ⟨s.effect call, Function.update s.pending who (s.remaining rest call)⟩
  | .append who entry =>
      match s.pending who with
      | .append :: rest =>
          some ⟨Function.update s.files 0 (some (s.entries 0 ++ [entry])),
            Function.update s.pending who rest⟩
      | _ => none

/-- Taking up a request touches no file. -/
theorem begin_step {s s' : State ι} {who : ι} (h : next s (.begin who) = some s') :
    s'.files = s.files := by
  simp only [next] at h
  split at h
  · cases h
    rfl
  · cases h

/-- A call of the rotation is the next one of its worker. -/
theorem call_step {s s' : State ι} {who : ι} (h : next s (.call who) = some s') :
    ∃ call rest, s.pending who = call :: rest ∧
      s' = ⟨s.effect call, Function.update s.pending who (s.remaining rest call)⟩ := by
  simp only [next] at h
  split at h
  · cases h
  · cases h
  · next call rest hpending hcall => exact ⟨call, rest, hcall, (Option.some.inj h).symm⟩

/-- An append writes its entry at the end of the log. -/
theorem append_step {s s' : State ι} {who : ι} {entry : Bytes}
    (h : next s (.append who entry) = some s') :
    s'.files = Function.update s.files 0 (some (s.entries 0 ++ [entry])) := by
  simp only [next] at h
  split at h
  · cases h
    rfl
  · cases h

/-- The entries that the steps append to the log, in order. -/
def appended (steps : List (Label ι)) : List Bytes :=
  steps.flatMap fun
    | .append _ entry => [entry]
    | _ => []

end Dvws.Rotation
