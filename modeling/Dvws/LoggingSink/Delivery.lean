import Mathlib.Data.List.Pairwise
import Dvws.LoggingSink.Pipeline

/-!
# Records are delivered once, in order, to the sink they captured

The worker takes the due entries out of the queue with a partition, so order survives only
because the due entries are a prefix of the queue. That holds since every entry is stamped under
the queue's lock by a monotone clock: the stamps in the queue never decrease (`Timely`). An entry
that arrives between the worker's clock reading and its critical section has a negative age
there, and stays.
-/

namespace Dvws.LoggingSink

open Transition

/-- A test that stays false once it turned false splits a list in two: the accepted elements come
first, then the rejected ones. -/
theorem filter_append_filter_not {α : Type*} {r : α → α → Prop} {p : α → Bool}
    (hp : ∀ a b, r a b → p b → p a) {l : List α} (h : l.Pairwise r) :
    l.filter p ++ l.filter (fun a => !p a) = l := by
  induction h with
  | nil => rfl
  | @cons a l hhead htail ih =>
      cases ha : p a with
      | true => simp [ha, ih]
      | false =>
          have hnone : l.filter p = [] := List.filter_eq_nil_iff.mpr fun b hb htrue =>
            Bool.false_ne_true (ha.symm.trans (hp a b (hhead b hb) htrue))
          rw [hnone, List.nil_append] at ih
          simp [ha, hnone, ih]

/-- Time in the pipeline: the stamps of the queue never decrease and lie in the past, as does
the worker's clock reading; an entry of the batch is old enough, and so was a written one. -/
structure Timely (s : State) : Prop where
  sorted : s.gQueue.Pairwise fun earlier later => earlier.enqueuedAt ≤ later.enqueuedAt
  queued : ∀ entry ∈ s.gQueue, entry.enqueuedAt ≤ s.clock
  sampled : ∀ now, s.worker = .sampled now → now ≤ s.clock
  aged : ∀ entry ∈ s.batch, entry.enqueuedAt + kFlushInterval ≤ s.clock
  written : ∀ w ∈ s.written, w.entry.enqueuedAt + kFlushInterval ≤ w.time

/-- The due entries are the front of the queue. -/
theorem Timely.due_append_keep {s : State} (hs : Timely s) (now : Int) :
    s.gQueue.filter (isDue now) ++ s.gQueue.filter (fun entry => !isDue now entry) =
      s.gQueue := by
  refine filter_append_filter_not (fun earlier later hle hdue => ?_) hs.sorted
  simp only [isDue, decide_eq_true_eq] at hdue ⊢
  omega

/-- Every step keeps the stamps sorted and in the past. -/
theorem Timely.step {s s' : State} {l : Label} (hs : Timely s) (h : Step s l s') :
    Timely s' := by
  obtain ⟨hsorted, hqueued, hsampled, haged, hwritten⟩ := hs
  cases h with
  | test hsink => exact ⟨hsorted, hqueued, hsampled, haged, hwritten⟩
  | enqueue hready hclock =>
      refine ⟨?_, ?_, fun now hnow => Int.le_trans (hsampled now hnow) hclock,
        fun entry hentry => Int.le_trans (haged entry hentry) hclock, hwritten⟩
      · refine List.pairwise_append.mpr ⟨hsorted, List.pairwise_singleton _ _, ?_⟩
        simpa using fun entry hentry => Int.le_trans (hqueued entry hentry) hclock
      · simp only [enqueueLogRecord, List.mem_append, List.mem_singleton]
        rintro entry (hentry | rfl)
        · exact Int.le_trans (hqueued entry hentry) hclock
        · exact Int.le_refl _
  | install => exact ⟨hsorted, hqueued, hsampled, haged, hwritten⟩
  | sample hworker hclock =>
      refine ⟨hsorted, fun entry hentry => Int.le_trans (hqueued entry hentry) hclock, ?_,
        by simp [State.batch], hwritten⟩
      rintro now ⟨⟩
      exact Int.le_refl _
  | @extract now hworker =>
      have hnow : now ≤ s.clock := hsampled now hworker
      simp only [extractBatch, List.partition_eq_filter_filter]
      refine ⟨hsorted.filter _, fun entry hentry => hqueued entry (List.mem_of_mem_filter hentry),
        by simp, ?_, hwritten⟩
      simp only [State.batch, List.mem_filter, isDue, decide_eq_true_eq]
      rintro entry ⟨-, hdue⟩
      omega
  | @write entry due time hworker hclock =>
      simp only [State.batch, hworker, List.mem_cons, forall_eq_or_imp] at haged
      refine ⟨hsorted, fun entry hentry => Int.le_trans (hqueued entry hentry) hclock,
        by simp [writeEntry], fun entry hentry => Int.le_trans (haged.2 entry hentry) hclock, ?_⟩
      simp only [writeEntry, List.mem_append, Option.mem_toList, Option.map_eq_some_iff]
      rintro w (hw | ⟨sink, -, rfl⟩)
      · exact hwritten w hw
      · exact Int.le_trans haged.1 hclock
  | rest hworker => exact ⟨hsorted, hqueued, by simp, by simp [State.batch], hwritten⟩

/-- Sinks in the pipeline: the installed sink is the latest one, a thread about to enqueue has
seen a sink, no waiting entry has captured a null pointer, and a write is made on the sink that
its entry captured. -/
structure Captured (s : State) : Prop where
  latest : s.gSink = installedSink s.installed
  tested : 0 < s.ready → s.gSink.isSome
  batch : ∀ entry ∈ s.batch, entry.sink.isSome
  queue : ∀ entry ∈ s.gQueue, entry.sink.isSome
  written : ∀ w ∈ s.written, w.entry.sink = some w.sink

/-- Every step keeps the waiting entries on non-null sinks. -/
theorem Captured.step {s s' : State} {l : Label} (hs : Captured s) (h : Step s l s') :
    Captured s' := by
  obtain ⟨hlatest, htested, hbatch, hqueue, hwritten⟩ := hs
  cases h with
  | test hsink => exact ⟨hlatest, fun _ => hsink, hbatch, hqueue, hwritten⟩
  | enqueue hready hclock =>
      refine ⟨hlatest, fun _ => htested hready, hbatch, ?_, hwritten⟩
      simp only [enqueueLogRecord, List.mem_append, List.mem_singleton]
      rintro entry (hentry | rfl)
      · exact hqueue entry hentry
      · exact htested hready
  | install => exact ⟨rfl, fun _ => rfl, hbatch, hqueue, hwritten⟩
  | sample hworker hclock => exact ⟨hlatest, htested, by simp [State.batch], hqueue, hwritten⟩
  | extract hworker =>
      simp only [extractBatch, List.partition_eq_filter_filter]
      exact ⟨hlatest, htested, fun entry hentry => hqueue entry (List.mem_of_mem_filter hentry),
        fun entry hentry => hqueue entry (List.mem_of_mem_filter hentry), hwritten⟩
  | write hworker hclock =>
      simp only [State.batch, hworker, List.mem_cons, forall_eq_or_imp] at hbatch
      refine ⟨hlatest, htested, hbatch.2, hqueue, ?_⟩
      simp only [writeEntry, List.mem_append, Option.mem_toList, Option.map_eq_some_iff]
      rintro w (hw | ⟨sink, hsink, rfl⟩)
      · exact hwritten w hw
      · exact hsink
  | rest hworker => exact ⟨hlatest, htested, by simp [State.batch], hqueue, hwritten⟩

/-- Nothing is lost or reordered: the entries written, then those of the batch, then those of the
queue are the entries enqueued, and the installations are counted. -/
structure Accounted (ls : List Label) (s : State) : Prop where
  entries : s.written.map Write.entry ++ s.batch ++ s.gQueue = enqueuedEntries 0 ls
  installed : s.installed = installations ls

/-- A step moves entries along the pipeline in their order and adds the one it enqueues. -/
theorem entries_step {s s' : State} {l : Label} (htimely : Timely s) (hcaptured : Captured s)
    (h : Step s l s') :
    s'.written.map Write.entry ++ s'.batch ++ s'.gQueue =
      s.written.map Write.entry ++ s.batch ++ s.gQueue ++ enqueuedEntries s.installed [l] := by
  cases h with
  | test hsink => simp [State.batch, enqueuedEntries]
  | enqueue hready hclock =>
      simp [enqueueLogRecord, State.batch, enqueuedEntries, hcaptured.latest]
  | install => simp [installLogSink, State.batch, enqueuedEntries]
  | sample hworker hclock => simp [State.batch, enqueuedEntries, hworker]
  | @extract now hworker =>
      have hsplit := htimely.due_append_keep now
      simp only [extractBatch, State.batch, hworker, List.partition_eq_filter_filter,
        enqueuedEntries, List.append_nil, List.append_assoc]
      exact congrArg _ hsplit
  | @write entry due time hworker hclock =>
      have hsink : entry.sink.isSome := hcaptured.batch entry (by simp [State.batch, hworker])
      obtain ⟨sink, hsink⟩ := Option.isSome_iff_exists.mp hsink
      simp [writeEntry, State.batch, enqueuedEntries, hworker, hsink]
  | rest hworker => simp [State.batch, enqueuedEntries, hworker]

/-- A step counts the installation it makes. -/
theorem installed_step {s s' : State} {l : Label} (h : Step s l s') :
    s'.installed = s.installed + installations [l] := by
  cases h <;> rfl

/-- The invariant of the pipeline after the steps `ls`. -/
structure Delivering (ls : List Label) (s : State) : Prop where
  timely : Timely s
  captured : Captured s
  accounted : Accounted ls s

/-- The invariant holds after every run. -/
theorem delivering_of_run {clock : Int} {ls : List Label} {s : State}
    (h : run next ls (State.init clock) = some s) : Delivering ls s := by
  refine run_induction ?_ (fun ls s l s' _ hs hnext => ?_) h
  · exact ⟨⟨.nil, by simp [State.init], by simp [State.init], by simp [State.init, State.batch],
      by simp [State.init]⟩, ⟨rfl, by simp [State.init], by simp [State.init, State.batch],
      by simp [State.init], by simp [State.init]⟩, ⟨rfl, rfl⟩⟩
  · have hstep := step_of_next hnext
    obtain ⟨htimely, hcaptured, ⟨hentries, hinstalled⟩⟩ := hs
    refine ⟨htimely.step hstep, hcaptured.step hstep, ?_, ?_⟩
    · rw [entries_step htimely hcaptured hstep, enqueuedEntries_append, hentries, hinstalled,
        Nat.zero_add]
    · rw [installed_step hstep, hinstalled, installations, installations, installations,
        List.count_append]

/-- The installed sink after a run is the latest one of its history. -/
theorem gSink_of_run {clock : Int} {ls : List Label} {s : State}
    (h : run next ls (State.init clock) = some s) : s.gSink = installedSink (installations ls) := by
  have hs := delivering_of_run h
  rw [hs.captured.latest, hs.accounted.installed]

/-- The entry at index `i` comes from the `i`-th enqueue step of the history. -/
theorem exists_enqueue_of_getElem? {n i : Nat} {ls : List Label} {entry : QueueEntry}
    (h : (enqueuedEntries n ls)[i]? = some entry) :
    ∃ before record time later, ls = before ++ .enqueue record time :: later ∧
      (enqueuedEntries n before).length = i ∧
      entry = ⟨record, installedSink (n + installations before), time⟩ := by
  induction ls generalizing n i with
  | nil => simp [enqueuedEntries] at h
  | cons l ls ih =>
      cases l with
      | enqueue record time =>
          cases i with
          | zero =>
              simp only [enqueuedEntries, List.getElem?_cons_zero, Option.some.injEq] at h
              exact ⟨[], record, time, ls, rfl, rfl, h.symm⟩
          | succ i =>
              simp only [enqueuedEntries, List.getElem?_cons_succ] at h
              obtain ⟨before, record', time', later, rfl, rfl, rfl⟩ := ih h
              exact ⟨.enqueue record time :: before, record', time', later, rfl, rfl, rfl⟩
      | install =>
          obtain ⟨before, record, time, later, rfl, rfl, rfl⟩ := ih (n := n + 1) h
          refine ⟨.install :: before, record, time, later, rfl, rfl, ?_⟩
          simp [installations, Nat.add_comm, Nat.add_left_comm]
      | test | sample | extract | write | rest =>
          obtain ⟨before, record, time, later, rfl, rfl, rfl⟩ := ih (n := n) h
          exact ⟨_ :: before, record, time, later, rfl, rfl, rfl⟩

/-- The `i`-th write of a run from `State.init clock` along `ls`: it is made for the entry of the
`i`-th enqueue step, on the sink that was installed at that step, and no earlier than
`kFlushInterval` after it. -/
def WrittenFor (clock : Int) (ls : List Label) (i : Nat) (w : Write) : Prop :=
  ∃ before record time later atEnqueue,
    ls = before ++ .enqueue record time :: later ∧
    (enqueuedEntries 0 before).length = i ∧
    run next before (State.init clock) = some atEnqueue ∧
    atEnqueue.gSink = some w.sink ∧
    w.entry = ⟨record, some w.sink, time⟩ ∧
    time + kFlushInterval ≤ w.time

/-- In every reachable state the records written, those left in the batch and those left in the
queue are the records enqueued, in order, and the `i`-th write belongs to the `i`-th enqueue. -/
theorem delivered_in_order {clock : Int} {ls : List Label} {s : State}
    (h : run next ls (State.init clock) = some s) :
    s.written.map Write.entry ++ s.batch ++ s.gQueue = enqueuedEntries 0 ls ∧
      ∀ i w, s.written[i]? = some w → WrittenFor clock ls i w := by
  have hs := delivering_of_run h
  refine ⟨hs.accounted.entries, fun i w hw => ?_⟩
  have hmem : w ∈ s.written := List.mem_of_getElem? hw
  have hentry : (enqueuedEntries 0 ls)[i]? = some w.entry := by
    have hlt : i < s.written.length := (List.getElem?_eq_some_iff.mp hw).1
    rw [← hs.accounted.entries, List.append_assoc, List.getElem?_append_left (by simpa using hlt),
      List.getElem?_map, hw, Option.map_some]
  obtain ⟨before, record, time, later, rfl, hlength, hcapture⟩ := exists_enqueue_of_getElem? hentry
  obtain ⟨atEnqueue, hbefore, -⟩ := exists_run_of_append h
  have hsink := hs.captured.written w hmem
  have htime := hs.timely.written w hmem
  refine ⟨before, record, time, later, atEnqueue, rfl, hlength, hbefore, ?_, ?_, ?_⟩
  · rw [gSink_of_run hbefore, ← hsink, hcapture, Nat.zero_add]
  · rw [← hsink, hcapture]
  · simpa [hcapture] using htime

/-- A history in which the sink is swapped while a record waits in the queue: the batch with that
record is extracted, and not yet written. -/
def swapHistory : List Label :=
  [.install, .test, .enqueue ⟨lit "Thu", lit "GET"⟩ 0, .install, .sample kFlushInterval, .extract]

/-- The record of `swapHistory` is written once, after a swap of the sinks. -/
theorem delivered_in_order_swapHistory :
    ∃ s, run next (swapHistory ++ [.write kFlushInterval]) (State.init 0) = some s ∧
      s.written.length = 1 ∧ s.batch = [] ∧ s.gQueue = [] ∧
      s.written.map Write.entry ++ s.batch ++ s.gQueue =
        enqueuedEntries 0 (swapHistory ++ [.write kFlushInterval]) ∧
      ∀ i w, s.written[i]? = some w →
        WrittenFor 0 (swapHistory ++ [.write kFlushInterval]) i w :=
  have hrun := (Option.some_get (rfl : (run next (swapHistory ++ [.write kFlushInterval])
    (State.init 0)).isSome = true)).symm
  ⟨_, hrun, rfl, rfl, rfl, delivered_in_order hrun⟩

end Dvws.LoggingSink
