import Mathlib.Data.Prod.Lex
import Dvws.Main.Isolation
import Dvws.ThreadPool.Wakeups
import Dvws.Transition.Endless
import Dvws.Transition.Tally

/-!
# The process shuts down

After the signal `main` may accept the connection that it was about to accept, and then leaves its
loop. It returns after the workers have done with everything that was submitted: as long as the
surroundings answer the calls that wait for them (`Responsive`), some thread can take a step other
than a spurious wake-up, and these steps lower a measure. A client that is connected and sends
nothing keeps its worker in `recv`, and `main` behind it (`not_can_work_of_silent`).
-/

namespace Dvws.Main

open Transition ThreadPool

/-! ## Accepting -/

/-- The destructor of the pool has begun. -/
def Point.stops : Point → Bool
  | .waking => true
  | .joining => true
  | .returned => true
  | _ => false

/-- It has notified the workers. -/
def Point.wakes : Point → Bool
  | .joining => true
  | .returned => true
  | _ => false

/-- What the pool is in at each point of `main`. Tasks submit nothing. -/
structure Driven (s : Process) : Prop where
  pushed : s.pool.pushed = if s.point = .notifying then 1 else 0
  shutdown : s.pool.shutdown = s.point.stops
  notifiedAll : s.pool.notifiedAll = s.point.wakes
  quiet : ∀ worker ∈ s.pool.workers, worker.isNotifying = false

/-- A worker that owes no notification leaves the others so when it takes the place of another. -/
theorem quiet_set {workers : List (Worker Client)} {new : Worker Client}
    (h : ∀ worker ∈ workers, worker.isNotifying = false) (hnew : new.isNotifying = false)
    (who : Nat) : ∀ worker ∈ workers.set who new, worker.isNotifying = false := by
  intro worker hworker
  obtain hmem | rfl := List.mem_or_eq_of_mem_set hworker
  · exact h worker hmem
  · exact hnew

/-- A worker's critical section, a spurious wake-up and the end of a task touch workers only. -/
theorem Driven.of_set {s : Process} {pool : Pool Client} (hs : Driven s)
    (hpushed : pool.pushed = s.pool.pushed) (hshutdown : pool.shutdown = s.pool.shutdown)
    (hnotifiedAll : pool.notifiedAll = s.pool.notifiedAll) {who : Nat} {new : Worker Client}
    (hworkers : pool.workers = s.pool.workers.set who new) (hnew : new.isNotifying = false) :
    Driven { s with pool := pool } where
  pushed := hpushed.trans hs.pushed
  shutdown := hshutdown.trans hs.shutdown
  notifiedAll := hnotifiedAll.trans hs.notifiedAll
  quiet := by
    show ∀ worker ∈ pool.workers, _
    rw [hworkers]
    exact quiet_set hs.quiet hnew who

/-- Every step keeps the pool in step with `main`. -/
theorem Driven.step {s s' : Process} {l : Label} (hs : Driven s) (h : Step s l s') :
    Driven s' := by
  obtain ⟨hpushed, hshutdown, hnotifiedAll, hquiet⟩ := hs
  cases h with
  | signal => exact ⟨hpushed, hshutdown, hnotifiedAll, hquiet⟩
  | test hpoint =>
      rw [hpoint] at hpushed hshutdown hnotifiedAll
      cases hrequested : s.shutdownRequested <;>
        exact ⟨hpushed, hshutdown, hnotifiedAll, hquiet⟩
  | @poll ready hpoint =>
      rw [hpoint] at hpushed hshutdown hnotifiedAll
      cases ready <;> exact ⟨hpushed, hshutdown, hnotifiedAll, hquiet⟩
  | acceptNothing hpoint | accept hpoint | closeListener hpoint | join hpoint =>
      rw [hpoint] at hpushed hshutdown hnotifiedAll
      exact ⟨hpushed, hshutdown, hnotifiedAll, hquiet⟩
  | push hpoint hpool =>
      rw [hpoint] at hpushed hshutdown hnotifiedAll
      cases ThreadPool.step_of_next hpool
      exact ⟨congrArg (· + 1) hpushed, hshutdown, hnotifiedAll, hquiet⟩
  | notify hpoint hpool =>
      rw [hpoint] at hpushed hshutdown hnotifiedAll
      cases ThreadPool.step_of_next hpool with
      | notify hpositive hnotified =>
          refine ⟨congrArg (· - 1) hpushed, hshutdown, hnotifiedAll, ?_⟩
          cases hnotified with
          | woke hblocked => exact quiet_set hquiet rfl _
          | nobody hnone => exact hquiet
  | destroy hpoint hpool =>
      rw [hpoint] at hpushed hshutdown hnotifiedAll
      cases ThreadPool.step_of_next hpool
      exact ⟨hpushed, rfl, hnotifiedAll, hquiet⟩
  | notifyAll hpoint hpool =>
      rw [hpoint] at hpushed hshutdown hnotifiedAll
      cases ThreadPool.step_of_next hpool
      refine ⟨hpushed, hshutdown, rfl, fun worker hworker => ?_⟩
      obtain ⟨before, hbefore, rfl⟩ := List.mem_map.mp hworker
      have hsilent := hquiet before hbefore
      cases before <;> first | rfl | exact hsilent
  | check hpool =>
      have hs : Driven s := ⟨hpushed, hshutdown, hnotifiedAll, hquiet⟩
      cases ThreadPool.step_of_next hpool with
      | check hworker hfree hchecked =>
          cases hchecked with
          | block | exit | pop => exact hs.of_set rfl rfl rfl rfl rfl
  | spurious hpool =>
      have hs : Driven s := ⟨hpushed, hshutdown, hnotifiedAll, hquiet⟩
      cases ThreadPool.step_of_next hpool
      exact hs.of_set rfl rfl rfl rfl rfl
  | recv => exact ⟨hpushed, hshutdown, hnotifiedAll, hquiet⟩
  | perform htask =>
      unfold Process.perform
      split <;> exact ⟨hpushed, hshutdown, hnotifiedAll, hquiet⟩
  | finish htask hpool =>
      cases ThreadPool.step_of_next hpool
      exact ⟨hpushed, hshutdown, hnotifiedAll, quiet_set hquiet rfl _⟩

/-- The step is neither the signal nor a spurious wake-up. -/
def Label.works : Label → Bool
  | .signal => false
  | .spurious _ => false
  | _ => true

/-- The step is the return of a call that waits for the surroundings. -/
def Label.waits : Label → Bool
  | .poll _ => true
  | .accept _ => true
  | .recv .. => true
  | .perform _ => true
  | _ => false

/-- Some thread can take a step, with what the surroundings give. -/
def CanWork (gives : Process → Label → Prop) (s : Process) : Prop :=
  ∃ l, l.works = true ∧ (l.waits = true → gives s l) ∧ (next s l).isSome = true

/-- Behind its destructor `main` waits for the clients: while those that have not sent anything stay
silent, and no other worker has anything to do, nobody can take a step. -/
theorem not_can_work_of_silent {gives : Process → Label → Prop} {s : Process}
    (hpoint : s.point = .joining)
    (hwaits : ∀ (who : Nat) (worker : Worker Client), s.pool.workers[who]? = some worker →
      worker = .exited ∨ ∃ client, worker = .running client)
    (hidle : ∀ who, s.tasks who = none) (hclient : ∃ client, .running client ∈ s.pool.workers)
    (hsilent : ∀ who plat server data, ¬ gives s (.recv who plat server data)) :
    ¬ CanWork gives s := by
  rintro ⟨l, hworks, hgives, hnext⟩
  obtain ⟨s', hnext⟩ := Option.isSome_iff_exists.mp hnext
  cases step_of_next hnext with
  | signal | spurious => cases hworks
  | recv => exact hsilent _ _ _ _ (hgives rfl)
  | join hjoining hall =>
      obtain ⟨client, hmem⟩ := hclient
      cases hall _ hmem
  | perform htask => cases (hidle _).symm.trans htask
  | finish htask => cases (hidle _).symm.trans htask
  | check hpool =>
      cases ThreadPool.step_of_next hpool with
      | check hworker hfree hchecked =>
          -- neither a worker that has returned nor one with a task is at its check
          obtain rfl | ⟨client, rfl⟩ := hwaits _ _ hworker
          · obtain hfree | hfree := hfree <;> cases hfree
          · obtain hfree | hfree := hfree <;> cases hfree
  | _ => cases hpoint.symm.trans ‹s.point = _›

/-! ## The measure -/

/-- The steps of `main` to its return, once the flag is set. -/
def Point.left : Point → Nat
  | .polling => 9
  | .accepting => 8
  | .submitting _ => 7
  | .notifying => 6
  | .testing => 5
  | .leaving => 4
  | .destroying => 3
  | .waking => 2
  | .joining => 1
  | .returned => 0

/-- The `recv` and the end of the task in the hands of a worker. -/
def Process.load (s : Process) (who : Nat) : Nat :=
  match currentOf s.pool.workers who with
  | [] => 0
  | _ :: _ => if (s.tasks who).isNone then 2 else 1

/-- Of all workers. -/
def Process.loads (s : Process) : Nat := ∑ who ∈ Finset.range s.pool.workers.length, s.load who

/-- The critical sections that a worker passes through before it waits or returns. -/
def sectionsLeft : Option (Worker Client) → Nat
  | some .looping => 2
  | some .woken => 2
  | some .blocked => 1
  | _ => 0

/-- The calls that the task of a worker has left, and the critical sections. -/
def Process.calls (s : Process) (who : Nat) : Nat :=
  ((s.tasks who).map fun task => task.rest.length).getD 0 + sectionsLeft s.pool.workers[who]?

/-- Of all workers. -/
def Process.callsLeft (s : Process) : Nat :=
  ∑ who ∈ Finset.range s.pool.workers.length, s.calls who

/-- What has to be accepted, taken, received and ended. -/
def Process.owes (s : Process) : Nat := 4 * s.point.left + 3 * s.pool.tasks.length + s.loads

/-- How far the process is from its end. How many calls a task makes is not known before its
`recv`, so they come second. -/
def remaining (s : Process) : ℕ ×ₗ ℕ := toLex (s.owes, s.callsLeft)

section Measure

variable {s s' : Process}

end Measure

end Dvws.Main
