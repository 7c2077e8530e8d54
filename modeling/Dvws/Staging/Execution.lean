import Dvws.Staging.Workers

/-!
# What is executed

Workers that write the helper into one file write the same text, so they do each other no harm,
and what one of them finishes is complete. A worker that truncates the file when another has
written some of it, or removes it when another is still staging, does harm. As long as no step of
the workers does that (`Undisturbed`), whatever their order, what is executed is the helper.
-/

namespace Dvws.Staging

open Files Transition

variable {ι : Type*}

/-- The step truncates nothing that was written, and removes nothing that is being staged. -/
def Undisturbed (s : State ι) : Label ι → Prop
  | .openTruncate _ => ∀ other, (s.workers other).hasWritten = false
  | .remove _ => ∀ other, (s.workers other).isStaging = false
  | _ => True

/-- What a worker relies on: the path leads to its file, which begins as the helper does and has
what the worker has written; from the `fclose` on it is all of the helper. -/
def Worker.Sound (path helper : Bytes) (disk : Disk Bytes) : Worker → Prop
  | .writing file offset rest => disk.names path = some file ∧
      helper.drop offset = rest.flatten ∧ offset ≤ (disk.contents file).length ∧
      disk.contents file <+: helper
  | .closed => disk.read path = some helper
  | .executable => disk.read path = some helper
  | _ => True

/-- Every worker may rely on that. -/
def Staged (plat : Platform) (helper : Bytes) (s : State ι) : Prop :=
  ∀ who, (s.workers who).Sound (stagingPath plat) helper s.disk

/-- The pieces of some data are the data. -/
theorem flatten_chunks (data : Bytes) : (chunks data).flatten = data := by
  have hpieces (fuel : Nat) (data : Bytes) (h : data.length ≤ fuel) :
      (chunksFrom fuel data).flatten = data := by
    induction fuel generalizing data with
    | zero => simp [chunksFrom, List.eq_nil_of_length_eq_zero (Nat.le_zero.mp h)]
    | succ fuel ih =>
        rw [chunksFrom]
        split
        · next hnil => rw [hnil, List.flatten_nil]
        · next hdata =>
          have hlength := List.length_pos_iff.mpr hdata
          rw [List.flatten_cons, ih _ (by rw [List.length_drop]; omega), List.take_append_drop]
  exact hpieces data.length data le_rfl

section Steps

variable [DecidableEq ι] {plat : Platform} {helper : Bytes} {s s' : State ι} {who : ι}

/-- After a step, the worker that took it and the others are looked at apart. -/
theorem staged_move {disk : Disk Bytes} {worker : Worker}
    (hmoved : worker.Sound (stagingPath plat) helper disk)
    (hothers : ∀ other, other ≠ who → (s.workers other).Sound (stagingPath plat) helper disk) :
    Staged plat helper (s.move who disk worker) := by
  intro other
  simp only [State.move]
  by_cases h : other = who
  · rw [h, Function.update_self]
    exact hmoved
  · rw [Function.update_of_ne h]
    exact hothers other h

/-- Nobody is harmed when a file that nothing has been written into is truncated. -/
theorem staged_open (hcond : ∀ other, (s.workers other).hasWritten = false)
    (hinv : Staged plat helper s) :
    Staged plat helper (s.move who (s.disk.truncate (stagingPath plat)).1
      (.writing (s.disk.truncate (stagingPath plat)).2 0 (chunks helper))) := by
  refine staged_move ?_ fun other _ => ?_
  · refine ⟨Disk.truncate_names _ _, ?_, Nat.zero_le _, ?_⟩
    · rw [flatten_chunks, List.drop_zero]
    · rw [Disk.truncate_contents]
      exact List.nil_prefix
  · have hworker := hinv other
    have hfresh := hcond other
    cases hother : s.workers other with
    | idle => trivial
    | writing file offset rest =>
        rw [hother] at hworker hfresh
        obtain ⟨hnames, hrest, -, -⟩ := hworker
        have hoffset : offset = 0 := by simpa [Worker.hasWritten] using hfresh
        have hfile : (s.disk.truncate (stagingPath plat)).2 = file := Disk.truncate_file hnames
        refine ⟨hfile ▸ Disk.truncate_names _ _, hrest, ?_, ?_⟩
        · rw [hoffset]
          exact Nat.zero_le _
        · rw [← hfile, Disk.truncate_contents]
          exact List.nil_prefix
    | closed =>
        rw [hother] at hfresh
        exact absurd hfresh (by decide)
    | executable =>
        rw [hother] at hfresh
        exact absurd hfresh (by decide)
    | executed => trivial

/-- A file that has become a longer beginning of the helper is as good to all. -/
theorem sound_of_grown {path : Bytes} {disk : Disk Bytes} {file : Nat} {text : Bytes}
    (hnames : disk.names path = some file) (hgrown : (disk.contents file).length ≤ text.length)
    (htext : text <+: helper) {worker : Worker} (h : worker.Sound path helper disk) :
    worker.Sound path helper
      { disk with contents := Function.update disk.contents file text } := by
  have hwhole (hread : disk.read path = some helper) :
      ({ disk with contents := Function.update disk.contents file text } : Disk Bytes).read path =
        some helper := by
    have hcontents : disk.contents file = helper := by simpa [Disk.read, hnames] using hread
    have hsame : text = helper := by
      refine htext.eq_of_length_le ?_
      rw [← hcontents]
      exact hgrown
    simp [Disk.read, hnames, hsame]
  cases worker with
  | idle => trivial
  | writing other offset rest =>
      obtain ⟨hother, hrest, hreached, -⟩ := h
      obtain rfl : file = other := Option.some.inj (hnames.symm.trans hother)
      refine ⟨hother, hrest, ?_, ?_⟩
      · simp only [Function.update_self]
        exact hreached.trans hgrown
      · simp only [Function.update_self]
        exact htext
  | closed => exact hwhole h
  | executable => exact hwhole h
  | executed => trivial

/-- A write harms nobody who relies on the staged helper. -/
theorem staged_write {file offset : Nat} {piece : Bytes} {rest : List Bytes}
    (hwho : s.workers who = .writing file offset (piece :: rest)) (hinv : Staged plat helper s) :
    Staged plat helper (s.move who (s.disk.write file offset piece)
      (.writing file (offset + piece.length) rest)) := by
  have hworker := hinv who
  rw [hwho] at hworker
  obtain ⟨hnames, hrest, hreached, hbegin⟩ := hworker
  rw [List.flatten_cons] at hrest
  obtain ⟨hbegins, hgrown, hcome⟩ :=
    overwrite_prefix hbegin hreached (hrest ▸ List.prefix_append _ _)
  refine staged_move ⟨hnames, ?_, ?_, ?_⟩ fun other _ => ?_
  · rw [← List.drop_drop, hrest, List.drop_left]
  · simp only [Disk.write, Function.update_self]
    exact hcome
  · simp only [Disk.write, Function.update_self]
    exact hbegins
  · exact sound_of_grown hnames hgrown hbegins (hinv other)

/-- What has been written to its end is the helper. -/
theorem staged_close {file offset : Nat} (hwho : s.workers who = .writing file offset [])
    (hinv : Staged plat helper s) : Staged plat helper (s.move who s.disk .closed) := by
  have hworker := hinv who
  rw [hwho] at hworker
  obtain ⟨hnames, hrest, hreached, hbegin⟩ := hworker
  refine staged_move ?_ fun other _ => hinv other
  have hlength : helper.length ≤ offset := by
    simpa only [List.flatten_nil, List.drop_eq_nil_iff] using hrest
  have hwhole : s.disk.contents file = helper := hbegin.eq_of_length_le (hlength.trans hreached)
  show s.disk.read (stagingPath plat) = some helper
  simp [Disk.read, hnames, hwhole]

/-- Nobody is harmed when a file is removed that nobody is staging. -/
theorem staged_remove (hcond : ∀ other, (s.workers other).isStaging = false) :
    Staged plat helper (s.move who (s.disk.remove (stagingPath plat)) .idle) := by
  refine staged_move trivial fun other _ => ?_
  have hidle := hcond other
  cases hother : s.workers other with
  | idle => trivial
  | executed => trivial
  | writing | closed | executable =>
      rw [hother] at hidle
      exact absurd hidle (by simp [Worker.isStaging])

/-- What every worker may rely on is kept by the steps that disturb nobody. -/
theorem staged_step {l : Label ι} (hcond : Undisturbed s l) (hinv : Staged plat helper s)
    (h : next plat helper s l = some s') : Staged plat helper s' := by
  cases l with
  | openTruncate who =>
      rw [open_step h]
      exact staged_open hcond hinv
  | write who =>
      obtain ⟨file, offset, piece, rest, hwho, rfl⟩ := write_step h
      exact staged_write hwho hinv
  | close who =>
      obtain ⟨file, offset, hwho, rfl⟩ := close_step h
      exact staged_close hwho hinv
  | changeMode who =>
      obtain ⟨hwho, rfl⟩ := change_mode_step h
      have hworker := hinv who
      rw [hwho] at hworker
      exact staged_move hworker fun other _ => hinv other
  | execute who =>
      obtain ⟨-, rfl⟩ := execute_step h
      exact staged_move trivial fun other _ => hinv other
  | remove who =>
      rw [remove_step h]
      exact staged_remove hcond

/-- In every state that an undisturbed run reaches, the helper is staged. -/
theorem staged_run {disk : Disk Bytes} {ls : List (Label ι)}
    (hmeets : Meets (next plat helper) Undisturbed (.init disk) ls)
    (h : run (next plat helper) ls (.init disk) = some s) : Staged plat helper s := by
  have hstart : Staged plat helper (.init disk : State ι) := fun _ => trivial
  refine run_induction_of_meets (P := fun _ => Staged plat helper) hstart ?_ h hmeets
  intro _ s l s' hinv hcond hnext
  exact staged_step hcond hinv hnext

end Steps

/-- In a run whose steps disturb nobody, every `execute` finds the complete helper. -/
theorem execute_finds_helper [DecidableEq ι] (plat : Platform) (helper : Bytes)
    (disk : Disk Bytes) (ls : List (Label ι))
    (hmeets : Meets (next plat helper) Undisturbed (.init disk) ls) :
    ∀ before who after s finish, ls = before ++ .execute who :: after →
      run (next plat helper) before (.init disk) = some s →
      next plat helper s (.execute who) = some finish →
      s.disk.read (stagingPath plat) = some helper := by
  rintro before who after s finish rfl hrun hnext
  obtain ⟨hwho, -⟩ := execute_step hnext
  have hworker := staged_run hmeets.of_append hrun who
  rw [hwho] at hworker
  exact hworker

/-- No file has a name. -/
def bareDisk : Disk Bytes := ⟨fun _ => none, fun _ => [], 0⟩

/-- Two workers open the file before either writes, and remove it when both have executed. -/
def overlappingSteps : List (Label Bool) :=
  [.openTruncate false, .openTruncate true, .write true, .write false, .close false,
    .changeMode false, .execute false, .close true, .changeMode true, .execute true,
    .remove true, .remove false]

/-- The overlapping steps disturb nobody: nothing was written when the workers open the file, and
nobody is staging when they remove it. -/
theorem overlapping_steps_meet :
    Meets (next Platform.bare (lit "helper")) Undisturbed (.init bareDisk) overlappingSteps := by
  iterate 2
    refine meets_cons (fun other => by cases other <;> rfl) fun _ h => ?_
    cases h
  iterate 8
    refine meets_cons trivial fun _ h => ?_
    cases h
  iterate 2
    refine meets_cons (fun other => by cases other <;> rfl) fun _ h => ?_
    cases h
  exact meets_nil

/-- The second executes the helper as well, after the first has. -/
theorem execute_finds_helper_overlapping :
    ∃ s, run (next Platform.bare (lit "helper")) (overlappingSteps.take 9) (.init bareDisk) =
        some s ∧
      s.workers false = .executed ∧
      s.disk.read (stagingPath Platform.bare) = some (lit "helper") := by
  refine ⟨_, rfl, rfl, ?_⟩
  exact execute_finds_helper Platform.bare (lit "helper") bareDisk overlappingSteps
    overlapping_steps_meet (overlappingSteps.take 9) true [.remove true, .remove false] _ _ rfl
    rfl rfl

/-- One worker has made its copy executable when the other, that executed it, removes it. -/
def removedSteps : List (Label Bool) :=
  [.openTruncate false, .openTruncate true, .write false, .write true, .close false, .close true,
    .changeMode false, .changeMode true, .execute false, .remove false]

/-- In `removedSteps` the first worker finds nothing to execute. -/
theorem execute_finds_nothing :
    ∃ s finish, run (next Platform.bare (lit "helper")) removedSteps (.init bareDisk) = some s ∧
      next Platform.bare (lit "helper") s (.execute true) = some finish ∧
      s.disk.read (stagingPath Platform.bare) ≠ some (lit "helper") :=
  ⟨_, _, rfl, rfl, by decide⟩

end Dvws.Staging
