import Mathlib.Data.List.Basic
import Dvws.Transition.Run

/-!
# The thread pool

The threads of `thread_pool.cpp` as one transition function. A step is one critical section under
`mtx_`, one notification, one wake-up, or the end of a task. `submit` is two steps, the push and
the `notify_one` after the lock is released, both for producers outside the pool and for tasks
that submit further tasks. A task is any value: what it computes is outside the pool, so its
submissions and the way it ends are choices of the labels.
-/

namespace Dvws.ThreadPool

/-- Where a worker is in `worker_loop`: about to take the lock, inside `cv_.wait`, notified (or
spuriously woken) and about to retake the lock, running a task, running a task that has pushed
another one and still owes its `notify_one`, or returned. -/
inductive Worker (τ : Type*) where
  | looping
  | blocked
  | woken
  | running (task : τ)
  | notifying (task : τ)
  | exited
  deriving DecidableEq, Repr

/-- The worker is inside `cv_.wait`. -/
def Worker.isBlocked {τ : Type*} : Worker τ → Bool
  | .blocked => true
  | _ => false

/-- The worker has left `cv_.wait` and has not evaluated the predicate again. -/
def Worker.isWoken {τ : Type*} : Worker τ → Bool
  | .woken => true
  | _ => false

/-- The worker owes a `notify_one`. -/
def Worker.isNotifying {τ : Type*} : Worker τ → Bool
  | .notifying _ => true
  | _ => false

/-- The task in the worker's hands. -/
def Worker.current {τ : Type*} : Worker τ → List τ
  | .running task => [task]
  | .notifying task => [task]
  | _ => []

/-- One call of a task by a worker. -/
structure Execution (τ : Type*) where
  worker : Nat
  task : τ
  deriving DecidableEq, Repr

/-- The members of `ThreadPool`, and the record of what happened: the calls started and the calls
ended, in order. `pushed` counts the producers outside the pool that still owe their
`notify_one`. -/
structure Pool (τ : Type*) where
  workers : List (Worker τ)
  tasks : List τ
  shutdown : Bool
  notifiedAll : Bool
  pushed : Nat
  started : List (Execution τ)
  finished : List (Execution τ)
  deriving DecidableEq, Repr

variable {τ : Type*}

/-- `ThreadPool(n_workers)`. -/
def Pool.init (nWorkers : Nat) : Pool τ :=
  ⟨List.replicate nWorkers .looping, [], false, false, 0, [], []⟩

/-- Move one worker to another point of its loop. -/
def Pool.setWorker (s : Pool τ) (who : Nat) (worker : Worker τ) : Pool τ :=
  { s with workers := s.workers.set who worker }

@[simp] theorem Pool.setWorker_workers (s : Pool τ) (who : Nat) (worker : Worker τ) :
    (s.setWorker who worker).workers = s.workers.set who worker := rfl

@[simp] theorem Pool.setWorker_tasks (s : Pool τ) (who : Nat) (worker : Worker τ) :
    (s.setWorker who worker).tasks = s.tasks := rfl

@[simp] theorem Pool.setWorker_started (s : Pool τ) (who : Nat) (worker : Worker τ) :
    (s.setWorker who worker).started = s.started := rfl

@[simp] theorem Pool.setWorker_finished (s : Pool τ) (who : Nat) (worker : Worker τ) :
    (s.setWorker who worker).finished = s.finished := rfl

/-- The steps. `push` and `notify` are the halves of a `submit` outside the pool, `taskPush` and
`taskNotify` those of a `submit` from inside the task of a worker. `check` is a worker's critical
section, `spurious` a wake-up without notification, `finish` the end of a task with or without an
exception. `destroy` and `notifyAll` are the halves of the destructor. A notification names the
worker it wakes, if any is waiting. -/
inductive Label (τ : Type*) where
  | push (task : τ)
  | notify (target : Option Nat)
  | check (who : Nat)
  | spurious (who : Nat)
  | taskPush (who : Nat) (task : τ)
  | taskNotify (who : Nat) (target : Option Nat)
  | finish (who : Nat) (threw : Bool)
  | destroy
  | notifyAll
  deriving DecidableEq, Repr

/-- The critical section of `worker_loop`. With `shutdown_ || !tasks_.empty()` false the worker
blocks; with the queue empty otherwise it returns; else it takes the front task out and calls
it. -/
def waitAndPop (s : Pool τ) (who : Nat) : Pool τ :=
  match s.tasks with
  | [] => s.setWorker who (if s.shutdown then .exited else .blocked)
  | task :: tasks =>
      { s.setWorker who (.running task) with
        tasks := tasks, started := s.started ++ [⟨who, task⟩] }

/-- `cv_.notify_one()`: one blocked worker is woken, and none only when none is blocked. -/
def notifyOne (workers : List (Worker τ)) : Option Nat → Option (List (Worker τ))
  | some target =>
      match workers[target]? with
      | some .blocked => some (workers.set target .woken)
      | _ => none
  | none => if workers.any Worker.isBlocked then none else some workers

/-- `cv_.notify_all()` for one worker. -/
def Worker.wake : Worker τ → Worker τ
  | .blocked => .woken
  | worker => worker

/-- One step of the pool. The accept loop submits only before the destructor starts; a task can
submit at any time. -/
def next (s : Pool τ) : Label τ → Option (Pool τ)
  | .push task =>
      if s.shutdown then none
      else some { s with tasks := s.tasks ++ [task], pushed := s.pushed + 1 }
  | .notify target =>
      if 0 < s.pushed then
        (notifyOne s.workers target).map fun workers =>
          { s with workers := workers, pushed := s.pushed - 1 }
      else none
  | .check who =>
      match s.workers[who]? with
      | some .looping => some (waitAndPop s who)
      | some .woken => some (waitAndPop s who)
      | _ => none
  | .spurious who =>
      match s.workers[who]? with
      | some .blocked => some (s.setWorker who .woken)
      | _ => none
  | .taskPush who task =>
      match s.workers[who]? with
      | some (.running current) =>
          some { s.setWorker who (.notifying current) with tasks := s.tasks ++ [task] }
      | _ => none
  | .taskNotify who target =>
      match s.workers[who]? with
      | some (.notifying current) =>
          (notifyOne (s.workers.set who (.running current)) target).map fun workers =>
            { s with workers := workers }
      | _ => none
  | .finish who _ =>
      match s.workers[who]? with
      | some (.running current) =>
          some { s.setWorker who .looping with finished := s.finished ++ [⟨who, current⟩] }
      | _ => none
  | .destroy => if s.shutdown then none else some { s with shutdown := true }
  | .notifyAll =>
      if s.shutdown && !s.notifiedAll then
        some { s with workers := s.workers.map Worker.wake, notifiedAll := true }
      else none

/-- What a notification does: it wakes one blocked worker, or none is blocked. -/
inductive Notified (workers : List (Worker τ)) : List (Worker τ) → Prop where
  | woke {target : Nat} (hblocked : workers[target]? = some .blocked) :
      Notified workers (workers.set target .woken)
  | nobody (hnone : workers.countP Worker.isBlocked = 0) : Notified workers workers

/-- `notifyOne` wakes one blocked worker, or none is blocked. -/
theorem notified_of_notifyOne {workers workers' : List (Worker τ)} {target : Option Nat}
    (h : notifyOne workers target = some workers') : Notified workers workers' := by
  cases target with
  | some target =>
      simp only [notifyOne] at h
      split at h
      · rename_i hblocked
        cases h
        exact .woke hblocked
      · cases h
  | none =>
      obtain ⟨hnone, ⟨⟩⟩ := Option.ite_none_left_eq_some.mp h
      exact .nobody (by simpa [List.countP_eq_zero] using hnone)

/-- What a worker's critical section does. -/
inductive Checked (s : Pool τ) (who : Nat) : Pool τ → Prop where
  | block (hempty : s.tasks = []) (hshutdown : s.shutdown = false) :
      Checked s who (s.setWorker who .blocked)
  | exit (hempty : s.tasks = []) (hshutdown : s.shutdown = true) :
      Checked s who (s.setWorker who .exited)
  | pop {task : τ} {tasks : List τ} (htasks : s.tasks = task :: tasks) :
      Checked s who { s.setWorker who (.running task) with
        tasks := tasks, started := s.started ++ [⟨who, task⟩] }

/-- `waitAndPop` takes a task, exits or waits. -/
theorem checked_waitAndPop (s : Pool τ) (who : Nat) : Checked s who (waitAndPop s who) := by
  cases htasks : s.tasks with
  | nil =>
      cases hshutdown : s.shutdown with
      | false => simpa [waitAndPop, htasks, hshutdown] using Checked.block htasks hshutdown
      | true => simpa [waitAndPop, htasks, hshutdown] using Checked.exit htasks hshutdown
  | cons task tasks => simpa [waitAndPop, htasks] using (Checked.pop htasks : Checked s who _)

/-- What each label does, guards included: the facts that the proofs take from a step. -/
inductive Step (s : Pool τ) : Label τ → Pool τ → Prop where
  | push {task : τ} (hshutdown : s.shutdown = false) :
      Step s (.push task) { s with tasks := s.tasks ++ [task], pushed := s.pushed + 1 }
  | notify {target : Option Nat} {workers : List (Worker τ)} (hpushed : 0 < s.pushed)
      (hnotified : Notified s.workers workers) :
      Step s (.notify target) { s with workers := workers, pushed := s.pushed - 1 }
  | check {who : Nat} {worker : Worker τ} {s' : Pool τ}
      (hworker : s.workers[who]? = some worker) (hfree : worker = .looping ∨ worker = .woken)
      (hchecked : Checked s who s') : Step s (.check who) s'
  | spurious {who : Nat} (hworker : s.workers[who]? = some .blocked) :
      Step s (.spurious who) (s.setWorker who .woken)
  | taskPush {who : Nat} {task current : τ} (hworker : s.workers[who]? = some (.running current)) :
      Step s (.taskPush who task)
        { s.setWorker who (.notifying current) with tasks := s.tasks ++ [task] }
  | taskNotify {who : Nat} {target : Option Nat} {current : τ} {workers : List (Worker τ)}
      (hworker : s.workers[who]? = some (.notifying current))
      (hnotified : Notified (s.workers.set who (.running current)) workers) :
      Step s (.taskNotify who target) { s with workers := workers }
  | finish {who : Nat} {threw : Bool} {current : τ}
      (hworker : s.workers[who]? = some (.running current)) :
      Step s (.finish who threw)
        { s.setWorker who .looping with finished := s.finished ++ [⟨who, current⟩] }
  | destroy (hshutdown : s.shutdown = false) : Step s .destroy { s with shutdown := true }
  | notifyAll (hshutdown : s.shutdown = true) (hfirst : s.notifiedAll = false) :
      Step s .notifyAll { s with workers := s.workers.map Worker.wake, notifiedAll := true }

/-- An enabled transition is one of the steps. -/
theorem step_of_next {s s' : Pool τ} {l : Label τ} (h : next s l = some s') : Step s l s' := by
  cases l with
  | push task =>
      obtain ⟨hshutdown, ⟨⟩⟩ := Option.ite_none_left_eq_some.mp h
      exact .push (by simpa using hshutdown)
  | notify target =>
      obtain ⟨hpushed, h⟩ := Option.ite_none_right_eq_some.mp h
      obtain ⟨workers, hnotified, rfl⟩ := Option.map_eq_some_iff.mp h
      exact .notify hpushed (notified_of_notifyOne hnotified)
  | check who =>
      simp only [next] at h
      split at h
      · cases h
        exact .check ‹_› (.inl rfl) (checked_waitAndPop s who)
      · cases h
        exact .check ‹_› (.inr rfl) (checked_waitAndPop s who)
      · cases h
  | spurious who =>
      simp only [next] at h
      split at h
      · cases h
        exact .spurious ‹_›
      · cases h
  | taskPush who task =>
      simp only [next] at h
      split at h
      · cases h
        exact .taskPush ‹_›
      · cases h
  | taskNotify who target =>
      simp only [next] at h
      split at h
      · obtain ⟨workers, hnotified, rfl⟩ := Option.map_eq_some_iff.mp h
        exact .taskNotify ‹_› (notified_of_notifyOne hnotified)
      · cases h
  | finish who threw =>
      simp only [next] at h
      split at h
      · cases h
        exact .finish ‹_›
      · cases h
  | destroy =>
      obtain ⟨hshutdown, ⟨⟩⟩ := Option.ite_none_left_eq_some.mp h
      exact .destroy (by simpa using hshutdown)
  | notifyAll =>
      obtain ⟨hguard, ⟨⟩⟩ := Option.ite_none_right_eq_some.mp h
      simp only [Bool.and_eq_true, Bool.not_eq_true'] at hguard
      exact .notifyAll hguard.1 hguard.2

end Dvws.ThreadPool
