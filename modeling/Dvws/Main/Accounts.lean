import Dvws.Main.Process
import Dvws.ThreadPool.Draining

/-!
# Every connection is in one place

A run of the process is a run of the pool whose tasks are the connections that `main` accepted, in
this order. So the accounts of the pool hold, and a connection is in the hands of `main`, in the
queue, with one worker, or done with, and never in two of these places.
-/

namespace Dvws.Main

open Transition ThreadPool

/-- The connections accepted so far: those started, those in the queue and the one that `main`
holds. A worker has done with all that it started but the current one. -/
structure Accounted (s : Process) : Prop where
  order : s.pool.started.map Execution.task ++ s.pool.tasks ++ s.point.hand = s.clients
  calls : ∀ who, tasksOf who s.pool.started =
    tasksOf who s.pool.finished ++ currentOf s.pool.workers who
  numbered : s.clients.map Client.number = List.range s.clients.length

/-- A run of the process is a run of the pool. -/
structure Drives (nWorkers : Nat) (history : List (ThreadPool.Label Client)) (s : Process) :
    Prop where
  runs : run ThreadPool.next history (Pool.init nWorkers) = some s.pool
  submitted : submitted history ++ s.point.hand = s.clients
  numbered : s.clients.map Client.number = List.range s.clients.length

section Drives

variable {nWorkers : Nat} {history : List (ThreadPool.Label Client)} {s s' : Process}

/-- A step of `main` outside the pool, which accepts nothing, adds nothing to what drives
the pool. -/
theorem Drives.of_frame (hs : Drives nWorkers history s) (hpool : s'.pool = s.pool)
    (hclients : s'.clients = s.clients) (hhand : s'.point.hand = s.point.hand) :
    Drives nWorkers history s' :=
  ⟨hpool ▸ hs.runs, by rw [hhand, hclients]; exact hs.submitted,
    by rw [hclients]; exact hs.numbered⟩

/-- A step of the pool, which may submit what `main` holds, is the next that drives it. -/
theorem Drives.of_pool {l : ThreadPool.Label Client} (hs : Drives nWorkers history s)
    (hpool : ThreadPool.next s.pool l = some s'.pool) (hclients : s'.clients = s.clients)
    (hhand : ThreadPool.submitted [l] ++ s'.point.hand = s.point.hand) :
    Drives nWorkers (history ++ [l]) s' where
  runs := run_concat_eq_some_iff.mpr ⟨s.pool, hs.runs, hpool⟩
  submitted := by
    have hsplit : ThreadPool.submitted (history ++ [l]) =
        ThreadPool.submitted history ++ ThreadPool.submitted [l] := List.filterMap_append
    rw [hsplit, List.append_assoc, hhand, hclients]
    exact hs.submitted
  numbered := by
    rw [hclients]
    exact hs.numbered

/-- Every step is none of the pool, or one. -/
theorem Drives.step {l : Label} (hs : Drives nWorkers history s) (h : Step s l s') :
    ∃ history', Drives nWorkers history' s' := by
  cases h with
  | signal => exact ⟨_, hs.of_frame rfl rfl rfl⟩
  | test hpoint =>
      refine ⟨_, hs.of_frame rfl rfl ?_⟩
      rw [hpoint]
      cases s.shutdownRequested <;> rfl
  | @poll ready hpoint =>
      refine ⟨_, hs.of_frame rfl rfl ?_⟩
      rw [hpoint]
      cases ready <;> rfl
  | acceptNothing hpoint => exact ⟨_, hs.of_frame rfl rfl (by rw [hpoint]; rfl)⟩
  | @accept socket hpoint hfree =>
      refine ⟨history, hs.runs, ?_, ?_⟩
      · have hnone : Point.accepting.hand = [] := rfl
        have hsubmitted := hs.submitted
        rw [hpoint, hnone, List.append_nil] at hsubmitted
        rw [hsubmitted]
        rfl
      · show (s.clients ++ [_]).map Client.number = List.range (s.clients ++ [_]).length
        rw [List.map_append, hs.numbered, List.length_append, List.length_singleton,
          List.range_succ]
        rfl
  | push hpoint hpool => exact ⟨_, hs.of_pool hpool rfl (by rw [hpoint]; rfl)⟩
  | notify hpoint hpool => exact ⟨_, hs.of_pool hpool rfl (by rw [hpoint]; rfl)⟩
  | closeListener hpoint => exact ⟨_, hs.of_frame rfl rfl (by rw [hpoint]; rfl)⟩
  | destroy hpoint hpool => exact ⟨_, hs.of_pool hpool rfl (by rw [hpoint]; rfl)⟩
  | notifyAll hpoint hpool => exact ⟨_, hs.of_pool hpool rfl (by rw [hpoint]; rfl)⟩
  | join hpoint hall => exact ⟨_, hs.of_frame rfl rfl (by rw [hpoint]; rfl)⟩
  | check hpool => exact ⟨_, hs.of_pool hpool rfl rfl⟩
  | spurious hpool => exact ⟨_, hs.of_pool hpool rfl rfl⟩
  | recv hworker hidle hfits hsurvives => exact ⟨_, hs.of_frame rfl rfl rfl⟩
  | @perform who request e rest htask =>
      refine ⟨_, hs.of_frame ?_ ?_ ?_⟩
      all_goals
        unfold Process.perform
        split <;> rfl
  | finish htask hpool => exact ⟨_, hs.of_pool hpool rfl rfl⟩

end Drives

/-- A run of the process drives the pool. -/
theorem drives_of_run {nWorkers : Nat} {ls : List Label} {s : Process}
    (h : run next ls (Process.init nWorkers) = some s) :
    ∃ history, Drives nWorkers history s := by
  refine run_induction (P := fun _ s => ∃ history, Drives nWorkers history s) ?_ ?_ h
  · exact ⟨[], rfl, rfl, rfl⟩
  · rintro ls s l s' - ⟨history, hs⟩ hnext
    exact hs.step (step_of_next hnext)

/-- The accounts of the pool after a run of the process. -/
theorem accounted_of_run {nWorkers : Nat} (hworkers : 0 < nWorkers) {ls : List Label}
    {s : Process} (h : run next ls (Process.init nWorkers) = some s) :
    Accounted s ∧ Drains s.pool := by
  obtain ⟨history, hdrives⟩ := drives_of_run h
  obtain ⟨hruns, hdrains⟩ := runsOnce_and_drains_of_run hworkers hdrives.runs
  refine ⟨⟨?_, hruns.calls, hdrives.numbered⟩, hdrains⟩
  rw [hruns.order]
  exact hdrives.submitted

namespace Accounted

variable {s : Process} {client : Client} {who : Nat}

/-- No two connections have one number. -/
theorem eq_of_number (hs : Accounted s) {other : Client} (hclient : client ∈ s.clients)
    (hother : other ∈ s.clients) (hsame : other.number = client.number) : other = client := by
  have hnodup : (s.clients.map Client.number).Nodup := hs.numbered ▸ List.nodup_range
  exact List.inj_on_of_nodup_map hnodup hother hclient hsame

/-- The number of a connection is less than their count. -/
theorem number_lt (hs : Accounted s) (hclient : client ∈ s.clients) :
    client.number < s.clients.length := by
  have hmem := List.mem_map_of_mem (f := Client.number) hclient
  rwa [hs.numbered, List.mem_range] at hmem

/-- No connection is in two places. -/
theorem places_nodup (hs : Accounted s) :
    (s.pool.started.map Execution.task ++ s.pool.tasks ++ s.point.hand).Nodup := by
  rw [hs.order]
  refine List.Nodup.of_map Client.number ?_
  rw [hs.numbered]
  exact List.nodup_range

/-- No task is started twice. -/
theorem started_nodup (hs : Accounted s) : (s.pool.started.map Execution.task).Nodup :=
  (List.nodup_append.mp (List.nodup_append.mp hs.places_nodup).1).1

/-- A worker has started the task in its hands. -/
theorem started_of_running (hs : Accounted s)
    (hworker : currentOf s.pool.workers who = [client]) :
    client ∈ tasksOf who s.pool.started := by
  rw [hs.calls, hworker]
  exact List.mem_append_right _ List.mem_cons_self

/-- The tasks of a worker were started by it. -/
theorem mem_started_iff {calls : List (Execution Client)} :
    client ∈ tasksOf who calls ↔ ⟨who, client⟩ ∈ calls := by
  rw [tasksOf, List.mem_map]
  constructor
  · intro hmem
    obtain ⟨⟨worker, task⟩, hlisted, rfl⟩ := hmem
    obtain ⟨hcall, hworker⟩ := List.mem_filter.mp hlisted
    obtain rfl : worker = who := of_decide_eq_true hworker
    exact hcall
  · intro hcall
    exact ⟨⟨who, client⟩, List.mem_filter.mpr ⟨hcall, decide_eq_true rfl⟩, rfl⟩

/-- Only one worker has started a task. -/
theorem worker_eq (hs : Accounted s) {other : Nat}
    (hwho : client ∈ tasksOf who s.pool.started) (hother : client ∈ tasksOf other s.pool.started) :
    other = who := by
  have heq := List.inj_on_of_nodup_map hs.started_nodup (mem_started_iff.mp hother)
    (mem_started_iff.mp hwho) rfl
  exact congrArg Execution.worker heq

/-- A connection with a worker was accepted. -/
theorem mem_of_running (hs : Accounted s)
    (hworker : currentOf s.pool.workers who = [client]) : client ∈ s.clients := by
  rw [← hs.order]
  refine List.mem_append_left _ (List.mem_append_left _ ?_)
  exact List.mem_map_of_mem (mem_started_iff.mp (hs.started_of_running hworker))

/-- A connection with a worker is with no other one. -/
theorem running_unique (hs : Accounted s) {other : Nat}
    (hwho : currentOf s.pool.workers who = [client])
    (hother : currentOf s.pool.workers other = [client]) : other = who :=
  hs.worker_eq (hs.started_of_running hwho) (hs.started_of_running hother)

/-- A connection with a worker is not in the queue, and `main` does not hold it. -/
theorem not_waiting_of_running (hs : Accounted s)
    (hworker : currentOf s.pool.workers who = [client]) :
    client ∉ s.pool.tasks ++ s.point.hand := by
  have hnodup := hs.places_nodup
  rw [List.append_assoc] at hnodup
  have hstarted := List.mem_map_of_mem (f := Execution.task)
    (mem_started_iff.mp (hs.started_of_running hworker))
  intro hwaits
  exact (List.nodup_append.mp hnodup).2.2 _ hstarted _ hwaits rfl

/-- A connection with a worker is not done with. -/
theorem not_finished_of_running (hs : Accounted s)
    (hworker : currentOf s.pool.workers who = [client]) :
    client ∉ s.pool.finished.map Execution.task := by
  intro hfinished
  obtain ⟨⟨other, task⟩, hcall, rfl⟩ := List.mem_map.mp hfinished
  have hdone : task ∈ tasksOf other s.pool.finished := mem_started_iff.mpr hcall
  have hstarted : task ∈ tasksOf other s.pool.started := by
    rw [hs.calls]
    exact List.mem_append_left _ hdone
  obtain rfl := hs.worker_eq (hs.started_of_running hworker) hstarted
  -- the worker has started it once, and both done it and got it in its hands
  have hnodup : (tasksOf other s.pool.started).Nodup := by
    refine List.Nodup.sublist ?_ hs.started_nodup
    exact (List.filter_sublist).map Execution.task
  rw [hs.calls, hworker] at hnodup
  exact (List.nodup_append.mp hnodup).2.2 _ hdone _ List.mem_cons_self rfl

/-- A connection done with was accepted. -/
theorem mem_of_finished (hs : Accounted s)
    (hfinished : client ∈ s.pool.finished.map Execution.task) : client ∈ s.clients := by
  obtain ⟨⟨worker, task⟩, hcall, rfl⟩ := List.mem_map.mp hfinished
  have hstarted : task ∈ tasksOf worker s.pool.started := by
    rw [hs.calls]
    exact List.mem_append_left _ (mem_started_iff.mpr hcall)
  rw [← hs.order]
  refine List.mem_append_left _ (List.mem_append_left _ ?_)
  exact List.mem_map_of_mem (mem_started_iff.mp hstarted)

end Accounted

end Dvws.Main
