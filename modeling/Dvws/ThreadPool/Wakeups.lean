import Dvws.ThreadPool.Pool

/-!
# No wake-up is lost

`submit` notifies after it has released the lock, so a task can be in the queue while its
notification is still owed, and a worker that comes back from a task can take it before the woken
worker does. The count that survives every order of these steps: unless nobody waits, the tasks
in the queue are at most the woken workers plus the notifications owed.
-/

namespace Dvws.ThreadPool

open Transition

/-- Replacing one element trades its contribution to a count for that of the new one. -/
theorem countP_set_add {α : Type*} (p : α → Bool) {l : List α} {i : Nat} {old : α}
    (h : l[i]? = some old) (new : α) :
    (l.set i new).countP p + (if p old then 1 else 0) =
      l.countP p + (if p new then 1 else 0) := by
  obtain ⟨hlt, rfl⟩ := List.getElem?_eq_some_iff.mp h
  rw [List.countP_set hlt]
  by_cases hold : p l[i]
  · have hpos : 0 < l.countP p := List.countP_pos_iff.mpr ⟨l[i], List.getElem_mem hlt, hold⟩
    simp only [hold, if_true]
    omega
  · simp only [hold, Bool.false_eq_true, if_false]
    omega

variable {τ : Type*}

/-- The workers inside `cv_.wait`. -/
def Pool.blocked (s : Pool τ) : Nat := s.workers.countP Worker.isBlocked

/-- The workers woken that have not evaluated the predicate again. -/
def Pool.woken (s : Pool τ) : Nat := s.workers.countP Worker.isWoken

/-- The notifications owed, by producers outside the pool and by tasks. -/
def Pool.owed (s : Pool τ) : Nat := s.pushed + s.workers.countP Worker.isNotifying

/-- No worker waits while there are more tasks than wake-ups under way, and after the
destructor's `notify_all` no worker waits at all. -/
structure NoLostWakeup (s : Pool τ) : Prop where
  covered : s.blocked = 0 ∨ s.tasks.length ≤ s.woken + s.owed
  released : s.notifiedAll = true → s.shutdown = true ∧ s.blocked = 0

/-- A notification owes nobody, blocks nobody, and wakes a worker if one waits. -/
theorem Notified.counts {workers workers' : List (Worker τ)} (h : Notified workers workers') :
    workers'.countP Worker.isNotifying = workers.countP Worker.isNotifying ∧
      workers'.countP Worker.isBlocked ≤ workers.countP Worker.isBlocked ∧
      (workers'.countP Worker.isBlocked = 0 ∨
        workers'.countP Worker.isWoken = workers.countP Worker.isWoken + 1) := by
  cases h with
  | woke hblocked =>
      have hnotifying := countP_set_add Worker.isNotifying hblocked .woken
      have hcount := countP_set_add Worker.isBlocked hblocked .woken
      have hwoken := countP_set_add Worker.isWoken hblocked .woken
      simp only [Worker.isNotifying, Worker.isBlocked, Worker.isWoken, if_true,
        Bool.false_eq_true, if_false] at hnotifying hcount hwoken
      omega
  | nobody hnone => exact ⟨rfl, Nat.le_refl _, .inl hnone⟩

/-- Waking every worker leaves none blocked. -/
theorem countP_isBlocked_wake (workers : List (Worker τ)) :
    (workers.map Worker.wake).countP Worker.isBlocked = 0 := by
  rw [List.countP_eq_zero]
  intro worker hworker
  obtain ⟨before, -, rfl⟩ := List.mem_map.mp hworker
  cases before <;> simp [Worker.wake, Worker.isBlocked]

/-- Moving one worker changes the three counts by what it leaves and what it enters. -/
theorem counts_set {workers : List (Worker τ)} {who : Nat} {old : Worker τ}
    (h : workers[who]? = some old) (new : Worker τ) :
    (workers.set who new).countP Worker.isBlocked + (if old.isBlocked then 1 else 0) =
        workers.countP Worker.isBlocked + (if new.isBlocked then 1 else 0) ∧
      (workers.set who new).countP Worker.isWoken + (if old.isWoken then 1 else 0) =
        workers.countP Worker.isWoken + (if new.isWoken then 1 else 0) ∧
      (workers.set who new).countP Worker.isNotifying + (if old.isNotifying then 1 else 0) =
        workers.countP Worker.isNotifying + (if new.isNotifying then 1 else 0) :=
  ⟨countP_set_add _ h new, countP_set_add _ h new, countP_set_add _ h new⟩

/-- A step that blocks nobody keeps the invariant when it adds no more tasks than wake-ups under
way, or leaves nobody blocked. -/
theorem NoLostWakeup.of_counts {s s' : Pool τ} (hs : NoLostWakeup s)
    (hnotifiedAll : s'.notifiedAll = s.notifiedAll) (hshutdown : s.shutdown → s'.shutdown)
    (hblocked : s'.blocked ≤ s.blocked)
    (hcount : s'.blocked = 0 ∨
      s'.tasks.length + (s.woken + s.owed) ≤ s.tasks.length + (s'.woken + s'.owed)) :
    NoLostWakeup s' := by
  obtain ⟨hcovered, hreleased⟩ := hs
  refine ⟨by omega, fun hall => ?_⟩
  obtain ⟨hdown, hnone⟩ := hreleased (hnotifiedAll ▸ hall)
  exact ⟨hshutdown hdown, by omega⟩

/-- A worker's critical section blocks it only when there is nothing to take, and takes at most
one task for the wake-up it uses up. -/
theorem NoLostWakeup.check {s s' : Pool τ} {who : Nat} {worker : Worker τ} (hs : NoLostWakeup s)
    (hworker : s.workers[who]? = some worker) (h : Checked s who s') : NoLostWakeup s' := by
  cases h with
  | block hempty hshutdown =>
      refine ⟨.inr (by simp [Pool.setWorker, hempty]), fun hall => ?_⟩
      simp [(hs.released hall).1] at hshutdown
  | exit hempty hshutdown =>
      refine ⟨.inr (by simp [Pool.setWorker, hempty]), fun hall => ⟨hshutdown, ?_⟩⟩
      have hcounts := counts_set hworker .exited
      have hnone := (hs.released hall).2
      simp only [Worker.isBlocked, Bool.false_eq_true, if_false] at hcounts
      simp only [Pool.blocked, Pool.setWorker] at hnone ⊢
      omega
  | @pop task tasks htasks =>
      have hcounts := counts_set hworker (.running task)
      have hspent : (if worker.isWoken then 1 else 0) +
          (if worker.isNotifying then 1 else 0) ≤ 1 := by
        cases worker <;> simp [Worker.isWoken, Worker.isNotifying]
      simp only [Worker.isBlocked, Worker.isWoken, Worker.isNotifying, Bool.false_eq_true,
        if_false] at hcounts hspent
      refine hs.of_counts rfl id ?_ (.inr ?_)
      · simp only [Pool.blocked, Pool.setWorker]
        omega
      · simp only [Pool.woken, Pool.owed, Pool.setWorker, htasks, List.length_cons]
        omega

/-- Every step keeps the count. -/
theorem NoLostWakeup.step {s s' : Pool τ} {l : Label τ} (hs : NoLostWakeup s)
    (h : Step s l s') : NoLostWakeup s' := by
  cases h with
  | push hshutdown =>
      refine hs.of_counts rfl id (Nat.le_refl _) (.inr ?_)
      simp only [Pool.woken, Pool.owed, List.length_append, List.length_singleton]
      omega
  | notify hpushed hnotified =>
      obtain ⟨hnotifying, hblocked, hwoken⟩ := hnotified.counts
      refine hs.of_counts rfl id hblocked (hwoken.imp id fun hwoken => ?_)
      simp only [Pool.woken, Pool.owed]
      omega
  | check hworker hfree hchecked => exact hs.check hworker hchecked
  | spurious hworker =>
      have hcounts := counts_set hworker .woken
      simp only [Worker.isBlocked, Worker.isWoken, Worker.isNotifying, if_true,
        Bool.false_eq_true, if_false] at hcounts
      refine hs.of_counts rfl id ?_ (.inr ?_)
      all_goals
        simp only [Pool.blocked, Pool.woken, Pool.owed, Pool.setWorker]
        omega
  | @taskPush who task current hworker =>
      have hcounts := counts_set hworker (.notifying current)
      simp only [Worker.isBlocked, Worker.isWoken, Worker.isNotifying, if_true,
        Bool.false_eq_true, if_false] at hcounts
      refine hs.of_counts rfl id ?_ (.inr ?_)
      all_goals
        simp only [Pool.blocked, Pool.woken, Pool.owed, Pool.setWorker, List.length_append,
          List.length_singleton]
        omega
  | @taskNotify who target current workers hworker hnotified =>
      have hcounts := counts_set hworker (.running current)
      simp only [Worker.isBlocked, Worker.isWoken, Worker.isNotifying, if_true,
        Bool.false_eq_true, if_false] at hcounts
      obtain ⟨hnotifying, hblocked, hwoken⟩ := hnotified.counts
      refine hs.of_counts rfl id ?_ (hwoken.imp id fun hwoken => ?_)
      all_goals
        simp only [Pool.blocked, Pool.woken, Pool.owed]
        omega
  | finish hworker =>
      have hcounts := counts_set hworker .looping
      simp only [Worker.isBlocked, Worker.isWoken, Worker.isNotifying, Bool.false_eq_true,
        if_false] at hcounts
      refine hs.of_counts rfl id ?_ (.inr ?_)
      all_goals
        simp only [Pool.blocked, Pool.woken, Pool.owed, Pool.setWorker]
        omega
  | destroy hshutdown =>
      exact hs.of_counts rfl (fun _ => rfl) (Nat.le_refl _) (.inr (Nat.le_refl _))
  | notifyAll hshutdown hfirst =>
      exact ⟨.inl (countP_isBlocked_wake _), fun _ => ⟨hshutdown, countP_isBlocked_wake _⟩⟩

/-- In every reachable state of any number of workers, either no worker is blocked or the woken
workers and the notifications owed are at least as many as the queued tasks, and once
`notify_all` is issued no worker is blocked. -/
theorem no_lost_wakeup {nWorkers : Nat} {ls : List (Label τ)} {s : Pool τ}
    (h : run next ls (Pool.init nWorkers) = some s) :
    (s.blocked = 0 ∨ s.tasks.length ≤ s.woken + s.owed) ∧
      (s.shutdown = true ∧ s.notifiedAll = true → s.blocked = 0) := by
  have hs : NoLostWakeup s := by
    refine run_invariant ⟨.inr (Nat.zero_le _), by simp [Pool.init]⟩ (fun s l s' hs hnext => ?_) h
    exact hs.step (step_of_next hnext)
  exact ⟨hs.covered, fun hall => (hs.released hall.2).2⟩

/-- With two workers blocked and a task pushed, its notification is still owed. -/
theorem no_lost_wakeup_pushed :
    ∃ s : Pool Nat, run next [.check 0, .check 1, .push 7] (Pool.init 2) = some s ∧
      s.blocked = 2 ∧ s.tasks = [7] ∧ s.owed = 1 ∧
      (s.blocked = 0 ∨ s.tasks.length ≤ s.woken + s.owed) ∧
      (s.shutdown = true ∧ s.notifiedAll = true → s.blocked = 0) :=
  have hrun := (Option.some_get
    (rfl : (run next [.check 0, .check 1, .push 7] (Pool.init 2 : Pool Nat)).isSome = true)).symm
  ⟨_, hrun, rfl, rfl, rfl, no_lost_wakeup hrun⟩

end Dvws.ThreadPool
