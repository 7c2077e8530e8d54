import Mathlib.Data.List.Perm.Basic
import Dvws.ThreadPool.Pool

/-!
# Every task runs once, and the pool drains

Tasks leave the queue in the order of their submission, each into the hands of one worker. Each
worker ends the calls it started in the order it started them, so its ended calls and the one in
its hands are its started calls. A worker returns only after it has seen the queue empty under
the lock, and only a worker still running a task can submit after that: the last worker to
return leaves the queue empty.
-/

namespace Dvws.ThreadPool

open Transition

variable {τ : Type*}

/-- The tasks a history submits, in order, from outside the pool and from inside tasks. -/
def submitted (ls : List (Label τ)) : List τ :=
  ls.filterMap fun
    | .push task => some task
    | .taskPush _ task => some task
    | _ => none

/-- The tasks of one worker's calls, in order. -/
def tasksOf (who : Nat) (calls : List (Execution τ)) : List τ :=
  (calls.filter (·.worker = who)).map Execution.task

/-- The task in the hands of one worker. -/
def currentOf (workers : List (Worker τ)) (who : Nat) : List τ :=
  (workers[who]?.map Worker.current).getD []

/-- Appending a call appends its task to its worker's calls. -/
theorem tasksOf_append_singleton (who : Nat) (calls : List (Execution τ)) (call : Execution τ) :
    tasksOf who (calls ++ [call]) =
      tasksOf who calls ++ (if call.worker = who then [call.task] else []) := by
  by_cases h : call.worker = who <;> simp [tasksOf, h]

/-- Two lists of calls with the same calls for every worker differ only in their order. -/
theorem perm_of_tasksOf_eq {first second : List (Execution τ)}
    (h : ∀ who, tasksOf who first = tasksOf who second) : first.Perm second := by
  classical
  have hcount : ∀ (call : Execution τ) (calls : List (Execution τ)),
      calls.count call = (tasksOf call.worker calls).count call.task := by
    intro call calls
    induction calls using List.reverseRecOn with
    | nil => rfl
    | append_singleton calls last ih =>
        rw [List.count_append, ih, tasksOf_append_singleton, List.count_append]
        obtain ⟨worker, task⟩ := call
        obtain ⟨lastWorker, lastTask⟩ := last
        by_cases hworker : lastWorker = worker
        · simp [hworker, List.count_singleton]
        · simp [hworker]
  exact List.perm_iff_count.mpr fun call => by rw [hcount, hcount, h]

/-- Moving one worker changes only what that worker has in its hands. -/
theorem currentOf_set {workers : List (Worker τ)} {who : Nat} {old : Worker τ}
    (h : workers[who]? = some old) (new : Worker τ) (other : Nat) :
    currentOf (workers.set who new) other =
      if who = other then new.current else currentOf workers other := by
  by_cases heq : who = other
  · subst heq
    have hlt : who < workers.length := (List.getElem?_eq_some_iff.mp h).1
    simp [currentOf, hlt]
  · simp [currentOf, heq]

/-- A worker that keeps its task in its hands changes nobody's. -/
theorem currentOf_set_of_eq {workers : List (Worker τ)} {who : Nat} {old new : Worker τ}
    (h : workers[who]? = some old) (hcurrent : new.current = old.current) :
    currentOf (workers.set who new) = currentOf workers := by
  funext other
  rw [currentOf_set h]
  split
  · rename_i heq
    subst heq
    simp [currentOf, h, hcurrent]
  · rfl

/-- A notification moves no task. -/
theorem Notified.currentOf_eq {workers workers' : List (Worker τ)} (h : Notified workers workers') :
    currentOf workers' = currentOf workers := by
  cases h with
  | woke hblocked => exact currentOf_set_of_eq hblocked rfl
  | nobody hnone => rfl

/-- Waking every worker moves no task. -/
theorem currentOf_map_wake (workers : List (Worker τ)) :
    currentOf (workers.map Worker.wake) = currentOf workers := by
  funext who
  have hwake : ∀ worker : Worker τ, worker.wake.current = worker.current := fun worker => by
    cases worker <;> rfl
  simp [currentOf, Function.comp_def, hwake]

/-- After the steps `ls`: the queue holds the submitted tasks not yet started, and each worker
has ended all the calls it started but the current one. -/
structure RunsOnce (ls : List (Label τ)) (s : Pool τ) : Prop where
  order : s.started.map Execution.task ++ s.tasks = submitted ls
  calls : ∀ who, tasksOf who s.started = tasksOf who s.finished ++ currentOf s.workers who

/-- A step that starts and ends no call, submits what it appends to the queue, and moves no task
keeps the accounts. -/
theorem RunsOnce.of_frame {ls : List (Label τ)} {l : Label τ} {s s' : Pool τ}
    (hs : RunsOnce ls s) (hstarted : s'.started = s.started) (hfinished : s'.finished = s.finished)
    (htasks : s'.tasks = s.tasks ++ submitted [l])
    (hcurrent : currentOf s'.workers = currentOf s.workers) : RunsOnce (ls ++ [l]) s' := by
  refine ⟨?_, fun who => ?_⟩
  · rw [hstarted, htasks, ← List.append_assoc, hs.order]
    exact List.filterMap_append.symm
  · rw [hstarted, hfinished, hcurrent, hs.calls]

/-- Every step accounts for the tasks it submits, starts or ends. -/
theorem RunsOnce.step {ls : List (Label τ)} {s s' : Pool τ} {l : Label τ} (hs : RunsOnce ls s)
    (h : Step s l s') : RunsOnce (ls ++ [l]) s' := by
  cases h with
  | push hshutdown => exact hs.of_frame rfl rfl rfl rfl
  | notify hpushed hnotified =>
      exact hs.of_frame rfl rfl (List.append_nil _).symm hnotified.currentOf_eq
  | @check who worker _ hworker hfree hchecked =>
      have hidle : worker.current = [] := by
        obtain rfl | rfl := hfree <;> rfl
      cases hchecked with
      | block hempty hshutdown =>
          exact hs.of_frame rfl rfl (List.append_nil _).symm
            (currentOf_set_of_eq hworker hidle.symm)
      | exit hempty hshutdown =>
          exact hs.of_frame rfl rfl (List.append_nil _).symm
            (currentOf_set_of_eq hworker hidle.symm)
      | @pop task tasks htasks =>
          refine ⟨?_, fun other => ?_⟩
          · have horder := hs.order
            rw [htasks] at horder
            simpa [submitted] using horder
          · simp only [Pool.setWorker_workers, tasksOf_append_singleton, currentOf_set hworker,
              hs.calls]
            by_cases heq : who = other
            · subst heq
              rw [currentOf, hworker, Option.map_some, hidle]
              simp [Worker.current]
            · simp [heq]
  | spurious hworker =>
      exact hs.of_frame rfl rfl (List.append_nil _).symm (currentOf_set_of_eq hworker rfl)
  | taskPush hworker => exact hs.of_frame rfl rfl rfl (currentOf_set_of_eq hworker rfl)
  | taskNotify hworker hnotified =>
      refine hs.of_frame rfl rfl (List.append_nil _).symm ?_
      exact hnotified.currentOf_eq.trans (currentOf_set_of_eq hworker rfl)
  | @finish who threw current hworker =>
      refine ⟨?_, fun other => ?_⟩
      · simpa [submitted] using hs.order
      · simp only [Pool.setWorker_workers, Pool.setWorker_started, tasksOf_append_singleton,
          currentOf_set hworker, hs.calls]
        by_cases heq : who = other
        · subst heq
          simp [currentOf, hworker, Worker.current]
        · simp [heq]
  | destroy hshutdown => exact hs.of_frame rfl rfl (List.append_nil _).symm rfl
  | notifyAll hshutdown hfirst =>
      exact hs.of_frame rfl rfl (List.append_nil _).symm (currentOf_map_wake _)

/-- A worker returns only in a pool that shuts down, and when all have returned the queue is
empty. -/
structure Drains (s : Pool τ) : Prop where
  nonempty : s.workers ≠ []
  exited : .exited ∈ s.workers → s.shutdown = true
  drained : (∀ worker ∈ s.workers, worker = .exited) → s.tasks = []

/-- A step that moves one worker somewhere else than to its return keeps the workers from leaving
tasks behind, whatever it does to the queue. -/
theorem Drains.of_set {s s' : Pool τ} {who : Nat} {old new : Worker τ} (hs : Drains s)
    (hworker : s.workers[who]? = some old) (hnew : new ≠ .exited)
    (hworkers : s'.workers = s.workers.set who new) (hshutdown : s'.shutdown = s.shutdown) :
    Drains s' := by
  have hlt : who < s.workers.length := (List.getElem?_eq_some_iff.mp hworker).1
  refine ⟨?_, fun hexited => ?_, fun hall => ?_⟩
  · rw [hworkers, ne_eq, List.set_eq_nil_iff]
    exact hs.nonempty
  · rw [hshutdown]
    obtain hmem | heq := List.mem_or_eq_of_mem_set (hworkers ▸ hexited)
    · exact hs.exited hmem
    · exact absurd heq.symm hnew
  · exact absurd (hall new (hworkers ▸ List.mem_set hlt new)) hnew

/-- A notification keeps the workers from leaving tasks behind. -/
theorem Drains.notified {s s' : Pool τ} (hs : Drains s) (h : Notified s.workers s'.workers)
    (hshutdown : s'.shutdown = s.shutdown) (htasks : s'.tasks = s.tasks) : Drains s' := by
  generalize hworkers : s'.workers = workers at h
  cases h with
  | woke hblocked => exact hs.of_set hblocked (by simp) hworkers hshutdown
  | nobody hnone =>
      exact ⟨hworkers ▸ hs.nonempty, by rw [hworkers, hshutdown]; exact hs.exited,
        by rw [hworkers, htasks]; exact hs.drained⟩

/-- Every step keeps the workers from leaving tasks behind. -/
theorem Drains.step {s s' : Pool τ} {l : Label τ} (hs : Drains s) (h : Step s l s') :
    Drains s' := by
  cases h with
  | push hshutdown =>
      refine ⟨hs.nonempty, hs.exited, fun hall => ?_⟩
      -- nobody has returned yet: the pool does not shut down
      obtain ⟨worker, hworker⟩ := List.exists_mem_of_ne_nil _ hs.nonempty
      have hdown := hs.exited (hall worker hworker ▸ hworker)
      simp [hdown] at hshutdown
  | notify hpushed hnotified => exact hs.notified hnotified rfl rfl
  | check hworker hfree hchecked =>
      cases hchecked with
      | block hempty hshutdown => exact hs.of_set hworker (by simp) rfl rfl
      | exit hempty hshutdown =>
          exact ⟨by simpa using hs.nonempty, fun _ => hshutdown, fun _ => hempty⟩
      | pop htasks => exact hs.of_set hworker (by simp) rfl rfl
  | spurious hworker => exact hs.of_set hworker (by simp) rfl rfl
  | taskPush hworker => exact hs.of_set hworker (by simp) rfl rfl
  | @taskNotify who target current workers hworker hnotified =>
      have hrunning : Drains (s.setWorker who (.running current)) :=
        hs.of_set hworker (by simp) rfl rfl
      exact hrunning.notified hnotified rfl rfl
  | finish hworker => exact hs.of_set hworker (by simp) rfl rfl
  | destroy hshutdown => exact ⟨hs.nonempty, fun _ => rfl, hs.drained⟩
  | notifyAll hshutdown hfirst =>
      refine ⟨by simpa using hs.nonempty, fun _ => hshutdown, fun hall => hs.drained ?_⟩
      intro worker hworker
      have hwoken := hall _ (List.mem_map_of_mem hworker)
      cases worker <;> simp_all [Worker.wake]

/-- Both invariants hold after every run with at least one worker. -/
theorem runsOnce_and_drains_of_run {nWorkers : Nat} (hworkers : 0 < nWorkers)
    {ls : List (Label τ)} {s : Pool τ} (h : run next ls (Pool.init nWorkers) = some s) :
    RunsOnce ls s ∧ Drains s := by
  refine run_induction (P := fun ls s => RunsOnce ls s ∧ Drains s) ?_ ?_ h
  · refine ⟨⟨rfl, fun who => ?_⟩, ?_, ?_, fun _ => rfl⟩
    · by_cases hlt : who < nWorkers <;>
        simp [Pool.init, tasksOf, currentOf, hlt, Worker.current]
    · simpa [Pool.init] using Nat.pos_iff_ne_zero.mp hworkers
    · simp [Pool.init, List.mem_replicate]
  · rintro ls s l s' - ⟨hruns, hdrains⟩ hnext
    have hstep := step_of_next hnext
    exact ⟨hruns.step hstep, hdrains.step hstep⟩

/-- A task that ends, by an exception or not, leaves its worker looping and everything else as it
was. -/
def SurvivesEnd (s : Pool τ) : Prop :=
  ∀ who threw s', next s (.finish who threw) = some s' →
    s'.workers[who]? = some .looping ∧
    (∀ other, other ≠ who → s'.workers[other]? = s.workers[other]?) ∧
    s'.tasks = s.tasks ∧ s'.started = s.started ∧ s'.shutdown = s.shutdown

/-- The end of a task touches its worker only. -/
theorem survivesEnd (s : Pool τ) : SurvivesEnd s := by
  intro who threw s' h
  cases step_of_next h with
  | finish hworker =>
      have hlt : who < s.workers.length := (List.getElem?_eq_some_iff.mp hworker).1
      refine ⟨by simp [hlt], fun other hother => ?_, rfl, rfl, rfl⟩
      simp [hother.symm]

/-- The pool starts the tasks in submission order, each once, survives every exception, and when
all workers have returned the queue is empty and the calls ended are the calls started. -/
theorem runs_every_task_once {nWorkers : Nat} (hworkers : 0 < nWorkers) {ls : List (Label τ)}
    {s : Pool τ} (h : run next ls (Pool.init nWorkers) = some s) :
    s.started.map Execution.task ++ s.tasks = submitted ls ∧
      SurvivesEnd s ∧
      ((∀ worker ∈ s.workers, worker = .exited) →
        s.tasks = [] ∧ s.finished.Perm s.started ∧
          (s.finished.map Execution.task).Perm (submitted ls)) := by
  obtain ⟨hruns, hdrains⟩ := runsOnce_and_drains_of_run hworkers h
  refine ⟨hruns.order, survivesEnd s, fun hall => ?_⟩
  have hempty : s.tasks = [] := hdrains.drained hall
  have hperm : s.finished.Perm s.started := by
    refine perm_of_tasksOf_eq fun who => ?_
    have hidle : currentOf s.workers who = [] := by
      cases hworker : s.workers[who]? with
      | none => simp [currentOf, hworker]
      | some worker =>
          have hexited := hall worker (List.mem_of_getElem? hworker)
          simp [currentOf, hworker, hexited, Worker.current]
    rw [hruns.calls, hidle, List.append_nil]
  refine ⟨hempty, hperm, ?_⟩
  rw [← hruns.order, hempty, List.append_nil]
  exact hperm.map _

/-- Two workers, a task that submits another one and throws, and the destructor. -/
def throwingHistory : List (Label Nat) :=
  [.push 7, .check 0, .taskPush 0 8, .notify none, .taskNotify 0 none, .check 1, .finish 0 true,
    .destroy, .check 0, .finish 1 false, .notifyAll, .check 1]

/-- In `throwingHistory` both tasks are run, by different workers. -/
theorem runs_every_task_once_throwing :
    ∃ s : Pool Nat, run next throwingHistory (Pool.init 2) = some s ∧
      s.workers = [.exited, .exited] ∧ s.started = [⟨0, 7⟩, ⟨1, 8⟩] ∧
      s.started.map Execution.task ++ s.tasks = submitted throwingHistory ∧
      SurvivesEnd s ∧
      ((∀ worker ∈ s.workers, worker = .exited) →
        s.tasks = [] ∧ s.finished.Perm s.started ∧
          (s.finished.map Execution.task).Perm (submitted throwingHistory)) :=
  have hrun := (Option.some_get
    (rfl : (run next throwingHistory (Pool.init 2)).isSome = true)).symm
  ⟨_, hrun, rfl, rfl, runs_every_task_once (by decide) hrun⟩

end Dvws.ThreadPool
