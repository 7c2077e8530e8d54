import Dvws.Bytes
import Dvws.Transition.Run

/-!
# The asynchronous log pipeline

The threads of `logging_sink.cpp` as one transition function. Request threads queue records
(`enqueue_log_record`), the admin handler swaps sinks (`install_log_sink`), and a single worker
drains the queue (`worker_loop`). A step is one critical section under `g_queue_mtx`, one clock
reading, one swap, or one `write` call, and a `Label` names the step together with the choices
that the scheduler and the clock make.

The only caller of `enqueue_log_record` is `log_request_response`, which first reads
`current_log_sink()` and calls it only for a non-null sink. The two reads of `g_sink` are
separate steps here: `test` is the first one, and `ready` counts the threads between the two.

The state also keeps what the statements are about: the sinks that are alive or deleted, and the
`write` calls made so far.
-/

namespace Dvws.LoggingSink

/-- `LogRecord`: one log line on its way to a sink. -/
structure LogRecord where
  timestamp : Bytes
  message : Bytes
  deriving DecidableEq, Repr

/-- The identity of a heap-allocated sink. Installations hand out `0, 1, 2, …` in order, so a
freed identity is never used again. -/
abbrev SinkId := Nat

/-- `QueueEntry`: a record, the sink pointer captured with it, and its enqueue time. -/
structure QueueEntry where
  record : LogRecord
  sink : Option SinkId
  enqueuedAt : Int
  deriving DecidableEq, Repr

/-- `kFlushInterval`, 250 ms in the nanoseconds of `steady_clock`. -/
def kFlushInterval : Int := 250000000

/-- `now - entry.enqueued_at >= kFlushInterval`. -/
def isDue (now : Int) (entry : QueueEntry) : Bool := kFlushInterval ≤ now - entry.enqueuedAt

/-- Where the worker is in its loop: before its clock reading, between the reading and the
critical section, or at the first of the batch entries still to be written. -/
inductive Worker where
  | sleeping
  | sampled (now : Int)
  | writing (due : List QueueEntry)
  deriving DecidableEq, Repr

/-- One `write` call: the queue entry it is made for, the sink it is made on, and its time. -/
structure Write where
  entry : QueueEntry
  sink : SinkId
  time : Int
  deriving DecidableEq, Repr

/-- The shared variables, the worker, and the record of what happened. `installed` counts the
installations and `clock` is the latest reading of `steady_clock`. -/
structure State where
  gQueue : List QueueEntry
  gSink : Option SinkId
  ready : Nat
  worker : Worker
  clock : Int
  installed : Nat
  alive : List SinkId
  deleted : List SinkId
  written : List Write
  deriving DecidableEq, Repr

/-- The state before the first request. -/
def State.init (clock : Int) : State := ⟨[], none, 0, .sleeping, clock, 0, [], [], []⟩

/-- The entries of the batch being written. -/
def State.batch (s : State) : List QueueEntry :=
  match s.worker with
  | .writing due => due
  | _ => []

/-- The steps. `test` is `current_log_sink() != nullptr` in `log_request_response`, `enqueue`
the critical section of `enqueue_log_record` with its clock reading, `install` all of
`install_log_sink`. The last four are the worker's: its clock reading, the partition of the
queue, one turn of the loop over the batch, and the end of that loop. -/
inductive Label where
  | test
  | enqueue (record : LogRecord) (time : Int)
  | install
  | sample (time : Int)
  | extract
  | write (time : Int)
  | rest
  deriving DecidableEq, Repr

/-- `enqueue_log_record` under its lock: capture the installed sink and the time. -/
def enqueueLogRecord (s : State) (record : LogRecord) (time : Int) : State :=
  { s with
    gQueue := s.gQueue ++ [⟨record, s.gSink, time⟩], ready := s.ready - 1, clock := time }

/-- `install_log_sink` on a fresh sink: swap the pointer and delete the outgoing sink. -/
def installLogSink (s : State) : State :=
  let old := s.gSink.toList
  { s with
    gSink := some s.installed, installed := s.installed + 1,
    alive := (s.installed :: s.alive).filter (· ∉ old), deleted := old ++ s.deleted }

/-- The critical section of `worker_loop`: the due entries leave the queue, in order. -/
def extractBatch (s : State) (now : Int) : State :=
  let (due, keep) := s.gQueue.partition (isDue now)
  { s with gQueue := keep, worker := .writing due }

/-- One turn of the loop over the batch: write the entry unless its sink is null. -/
def writeEntry (s : State) (entry : QueueEntry) (due : List QueueEntry) (time : Int) : State :=
  { s with
    worker := .writing due, clock := time,
    written := s.written ++ (entry.sink.map (⟨entry, ·, time⟩)).toList }

/-- One step of the pipeline. The clock is monotone: no reading is below an earlier one. -/
def next (s : State) : Label → Option State
  | .test => if s.gSink.isSome then some { s with ready := s.ready + 1 } else none
  | .enqueue record time =>
      if 0 < s.ready ∧ s.clock ≤ time then some (enqueueLogRecord s record time) else none
  | .install => some (installLogSink s)
  | .sample time =>
      if s.worker = .sleeping ∧ s.clock ≤ time then
        some { s with worker := .sampled time, clock := time }
      else none
  | .extract =>
      match s.worker with
      | .sampled now => some (extractBatch s now)
      | _ => none
  | .write time =>
      match s.worker with
      | .writing (entry :: due) =>
          if s.clock ≤ time then some (writeEntry s entry due time) else none
      | _ => none
  | .rest => if s.worker = .writing [] then some { s with worker := .sleeping } else none

/-- What each label does, guards included: the facts that the proofs take from a step. -/
inductive Step (s : State) : Label → State → Prop where
  | test (hsink : s.gSink.isSome) : Step s .test { s with ready := s.ready + 1 }
  | enqueue {record : LogRecord} {time : Int} (hready : 0 < s.ready) (hclock : s.clock ≤ time) :
      Step s (.enqueue record time) (enqueueLogRecord s record time)
  | install : Step s .install (installLogSink s)
  | sample {time : Int} (hworker : s.worker = .sleeping) (hclock : s.clock ≤ time) :
      Step s (.sample time) { s with worker := .sampled time, clock := time }
  | extract {now : Int} (hworker : s.worker = .sampled now) :
      Step s .extract (extractBatch s now)
  | write {entry : QueueEntry} {due : List QueueEntry} {time : Int}
      (hworker : s.worker = .writing (entry :: due)) (hclock : s.clock ≤ time) :
      Step s (.write time) (writeEntry s entry due time)
  | rest (hworker : s.worker = .writing []) : Step s .rest { s with worker := .sleeping }

/-- An enabled transition is one of the steps. -/
theorem step_of_next {s s' : State} {l : Label} (h : next s l = some s') : Step s l s' := by
  cases l with
  | test =>
      obtain ⟨hsink, ⟨⟩⟩ := Option.ite_none_right_eq_some.mp h
      exact .test hsink
  | enqueue record time =>
      obtain ⟨⟨hready, hclock⟩, ⟨⟩⟩ := Option.ite_none_right_eq_some.mp h
      exact .enqueue hready hclock
  | install =>
      cases h
      exact .install
  | sample time =>
      obtain ⟨⟨hworker, hclock⟩, ⟨⟩⟩ := Option.ite_none_right_eq_some.mp h
      exact .sample hworker hclock
  | extract =>
      cases hworker : s.worker with
      | sampled now =>
          simp only [next, hworker, Option.some.injEq] at h
          subst h
          exact .extract hworker
      | sleeping => simp [next, hworker] at h
      | writing due => simp [next, hworker] at h
  | write time =>
      cases hworker : s.worker with
      | writing due =>
          cases due with
          | nil => simp [next, hworker] at h
          | cons entry due =>
              simp only [next, hworker] at h
              obtain ⟨hclock, ⟨⟩⟩ := Option.ite_none_right_eq_some.mp h
              exact .write hworker hclock
      | sleeping => simp [next, hworker] at h
      | sampled now => simp [next, hworker] at h
  | rest =>
      obtain ⟨hworker, ⟨⟩⟩ := Option.ite_none_right_eq_some.mp h
      exact .rest hworker

/-- The number of installations in a history. -/
def installations (ls : List Label) : Nat := ls.count .install

/-- The sink installed after `n` installations. -/
def installedSink : Nat → Option SinkId
  | 0 => none
  | n + 1 => some n

/-- The entries a history enqueues, in order, when `n` installations came before it: each with
the sink installed at that moment. -/
def enqueuedEntries : Nat → List Label → List QueueEntry
  | _, [] => []
  | n, .enqueue record time :: ls => ⟨record, installedSink n, time⟩ :: enqueuedEntries n ls
  | n, .install :: ls => enqueuedEntries (n + 1) ls
  | n, _ :: ls => enqueuedEntries n ls

/-- The entries of a longer history are those of its first part, then those of the rest with
the installations of the first part counted. -/
theorem enqueuedEntries_append (n : Nat) (ls later : List Label) :
    enqueuedEntries n (ls ++ later) =
      enqueuedEntries n ls ++ enqueuedEntries (n + installations ls) later := by
  induction ls generalizing n with
  | nil => simp [enqueuedEntries, installations]
  | cons l ls ih =>
      cases l <;> simp [enqueuedEntries, installations, ih, Nat.add_comm, Nat.add_left_comm]

end Dvws.LoggingSink
