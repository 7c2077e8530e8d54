import Dvws.LoggingSink.Delivery

/-!
# When a record is flushed through a deleted sink

`install_log_sink` deletes the outgoing sink at once, while the queue and the batch may still
hold its address. One swap between the enqueue and the write is enough, and nothing else does it:
the deleted sinks are all but the latest one.
-/

namespace Dvws.LoggingSink

open Transition

/-- The sinks after some installations: the installed one is the only one alive, and all earlier
ones are deleted. -/
structure OnlyLatestAlive (s : State) : Prop where
  latest : s.gSink = installedSink s.installed
  alive : s.alive = s.gSink.toList
  deleted : ∀ sink : Nat, sink ∈ s.deleted ↔ sink + 1 < s.installed

/-- A swap leaves the incoming sink alive and the outgoing one deleted. -/
theorem OnlyLatestAlive.install {s : State} (hs : OnlyLatestAlive s) :
    OnlyLatestAlive (installLogSink s) := by
  obtain ⟨hlatest, halive, hdeleted⟩ := hs
  cases hinstalled : s.installed with
  | zero =>
      have hnone : s.gSink = none := by rw [hlatest, hinstalled, installedSink]
      refine ⟨rfl, by simp [installLogSink, halive, hnone], fun sink => ?_⟩
      simp [installLogSink, hdeleted, hnone, hinstalled]
  | succ outgoing =>
      have hsome : s.gSink = some outgoing := by rw [hlatest, hinstalled, installedSink]
      refine ⟨rfl, by simp [installLogSink, halive, hsome, hinstalled], fun sink => ?_⟩
      simp only [installLogSink, hsome, hinstalled, Option.toList_some, List.cons_append,
        List.nil_append, List.mem_cons, hdeleted]
      omega

/-- The only step that touches the sinks is the swap. -/
theorem OnlyLatestAlive.step {s s' : State} {l : Label} (hs : OnlyLatestAlive s)
    (h : Step s l s') : OnlyLatestAlive s' := by
  cases h with
  | install => exact hs.install
  | test | enqueue | sample | extract | write | rest => exact ⟨hs.latest, hs.alive, hs.deleted⟩

/-- After every run only the latest sink is alive. -/
theorem onlyLatestAlive_of_run {clock : Int} {ls : List Label} {s : State}
    (h : run next ls (State.init clock) = some s) : OnlyLatestAlive s :=
  run_invariant ⟨rfl, rfl, by simp [State.init]⟩
    (fun _ _ _ hs hnext => hs.step (step_of_next hnext)) h

/-- An enqueue step captures the sink installed by the steps before it. -/
theorem getElem?_enqueuedEntries (before later : List Label) (record : LogRecord) (time : Int) :
    (enqueuedEntries 0 (before ++ .enqueue record time :: later))[
        (enqueuedEntries 0 before).length]? =
      some ⟨record, installedSink (installations before), time⟩ := by
  simp [enqueuedEntries_append, enqueuedEntries]

/-- An installation follows the `i`-th enqueue step of the history. -/
def InstalledSince (ls : List Label) (i : Nat) : Prop :=
  ∃ before record time later, ls = before ++ .enqueue record time :: later ∧
    (enqueuedEntries 0 before).length = i ∧ .install ∈ later

/-- The sink captured by the `i`-th enqueue step has a successor exactly when an installation
follows that step. -/
theorem installedSince_iff {ls : List Label} {i : Nat} {entry : QueueEntry} {sink : Nat}
    (hentry : (enqueuedEntries 0 ls)[i]? = some entry) (hsink : entry.sink = some sink) :
    InstalledSince ls i ↔ sink + 1 < installations ls := by
  have hcapture : ∀ before record time later, ls = before ++ .enqueue record time :: later →
      (enqueuedEntries 0 before).length = i →
      installations ls = sink + 1 + installations later := by
    rintro before record time later rfl rfl
    rw [getElem?_enqueuedEntries, Option.some.injEq] at hentry
    subst hentry
    cases hbefore : installations before with
    | zero => simp [hbefore, installedSink] at hsink
    | succ n =>
        simp only [hbefore, installedSink, Option.some.injEq] at hsink
        subst hsink
        rw [← hbefore]
        simp [installations]
  constructor
  · intro hinstalled
    obtain ⟨before, record, time, later, hls, hlength, hinstall⟩ := hinstalled
    have hcount := hcapture before record time later hls hlength
    have hpos : 0 < installations later := List.count_pos_iff.mpr hinstall
    omega
  · intro hlt
    obtain ⟨before, record, time, later, hls, hlength, -⟩ := exists_enqueue_of_getElem? hentry
    have hcount := hcapture before record time later hls hlength
    have hpos : 0 < installations later := by omega
    exact ⟨before, record, time, later, hls, hlength, List.count_pos_iff.mp hpos⟩

/-- In every reachable state the installed sink is the only one alive, and the write that the
worker makes next goes through a deleted sink exactly when a sink was installed after the entry
it writes was enqueued. -/
theorem flushed_through_deleted_iff {clock : Int} {ls : List Label} {s : State}
    (h : run next ls (State.init clock) = some s) :
    s.alive = s.gSink.toList ∧
      ∀ time s', next s (.write time) = some s' →
        ∃ w, s'.written = s.written ++ [w] ∧
          (enqueuedEntries 0 ls)[s.written.length]? = some w.entry ∧
          (w.sink ∈ s.deleted ↔ InstalledSince ls s.written.length) := by
  have halive := onlyLatestAlive_of_run h
  have hs := delivering_of_run h
  refine ⟨halive.alive, fun time s' hnext => ?_⟩
  cases step_of_next hnext with
  | @write entry due time hworker hclock =>
      have hsome : entry.sink.isSome := hs.captured.batch entry (by simp [State.batch, hworker])
      obtain ⟨sink, hsink⟩ := Option.isSome_iff_exists.mp hsome
      have hentry : (enqueuedEntries 0 ls)[s.written.length]? = some entry := by
        rw [← hs.accounted.entries, List.append_assoc, List.getElem?_append_right (by simp)]
        simp [State.batch, hworker]
      refine ⟨⟨entry, sink, time⟩, by simp [writeEntry, hsink], hentry, ?_⟩
      rw [halive.deleted, installedSince_iff hentry hsink, hs.accounted.installed]

/-- After `swapHistory` the next write goes through sink `0`, which is deleted. -/
theorem flushed_through_deleted_swapHistory :
    ∃ s, run next swapHistory (State.init 0) = some s ∧ s.deleted = [0] ∧
      (next s (.write kFlushInterval)).isSome ∧ s.alive = s.gSink.toList ∧
      ∀ time s', next s (.write time) = some s' →
        ∃ w, s'.written = s.written ++ [w] ∧
          (enqueuedEntries 0 swapHistory)[s.written.length]? = some w.entry ∧
          (w.sink ∈ s.deleted ↔ InstalledSince swapHistory s.written.length) :=
  have hrun := (Option.some_get (rfl : (run next swapHistory (State.init 0)).isSome = true)).symm
  ⟨_, hrun, rfl, rfl, flushed_through_deleted_iff hrun⟩

end Dvws.LoggingSink
