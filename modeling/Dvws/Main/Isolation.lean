import Dvws.Main.Accounts
import Dvws.Router.LastCall

/-!
# Connections are isolated

A descriptor is an index into a table of the process, and the system gives a closed one to the next
connection. A task that used its descriptor once more behind its `close`, or closed it twice, would
be heard by another client. No task does: in every order of the steps of `main` and its workers,
every operation of a task acts on the connection that it was submitted for, and a connection sees
the operations of its own request, in the order of `dispatch`, and no others.
-/

namespace Dvws.Main

open Transition ThreadPool

/-! ## What a connection sees -/

/-- What arrived at a connection, in order. -/
def arrived (acts : List Act) (number : Nat) : List Operation :=
  acts.filterMap fun act => if act.hit = some number then some act.operation else none

/-- The calls on the descriptor among some events. -/
def socketCalls (events : List Event) : List Operation := (events.filter onSocket).map .event

/-- What the handling of a request does to its connection. -/
def Request.transcript (request : Request) : List Operation :=
  .recv :: socketCalls request.outcome.events

/-- The request makes `dispatch` throw. -/
def Request.Leaks (request : Request) : Prop :=
  ∃ data, request.data = some data ∧ Dvws.Leaks request.server (requestBuffer data)

/-- The handling ends with `close`, or nothing is done at all. -/
theorem Request.ends (request : Request) :
    (¬ request.Leaks ∧ EndsClosed request.outcome) ∨
      ((request.overruns = true ∨ request.Leaks) ∧ request.outcome.events = []) := by
  unfold Request.overruns Request.Leaks Request.outcome Request.handle
  cases hdata : request.data with
  | none =>
      refine .inl ⟨fun hleaks => ?_, ends_closed_close _⟩
      obtain ⟨data, hsome, -⟩ := hleaks
      cases hsome
  | some data =>
      obtain ⟨-, hleaks, hends⟩ | ⟨hoverruns | hleaks, hnone⟩ :=
        dispatch_ends request.plat (requestBuffer data) request.server
      · refine .inl ⟨fun hthrows => ?_, hends⟩
        obtain ⟨other, hsome, hthrows⟩ := hthrows
        cases hsome
        exact hleaks hthrows
      · refine .inr ⟨.inl ?_, hnone⟩
        dsimp only
        rw [dispatch_of_overrun hoverruns]
      · exact .inr ⟨.inr ⟨data, rfl, hleaks⟩, hnone⟩

/-- A transcript has no `close`, or ends with its only one. -/
theorem Request.transcript_cases (request : Request) :
    (¬ request.Leaks ∧ ∃ front, request.transcript = front ++ [.event .close] ∧
      .event .close ∉ front) ∨
        ((request.overruns = true ∨ request.Leaks) ∧ request.transcript = [.recv]) := by
  obtain ⟨hleaks, front, hevents, hopen⟩ | ⟨hleaks, hnone⟩ := request.ends
  · refine .inl ⟨hleaks, .recv :: socketCalls front, ?_, ?_⟩
    · rw [transcript, hevents, socketCalls, List.filter_append, List.map_append]
      rfl
    · intro hclose
      obtain hrecv | hcall := List.mem_cons.mp hclose
      · cases hrecv
      · obtain ⟨e, he, heq⟩ := List.mem_map.mp hcall
        cases heq
        exact hopen (List.mem_filter.mp he).1
  · refine .inr ⟨hleaks, ?_⟩
    rw [transcript, hnone]
    rfl

/-- The connection is closed behind everything else. -/
theorem Request.closed_last {request : Request} {front back : List Operation} {op : Operation}
    (h : front ++ op :: back = request.transcript) : .event .close ∉ front := by
  obtain ⟨-, before, htranscript, hopen⟩ | ⟨-, htranscript⟩ := request.transcript_cases
  · have hinit : front <+: before ++ [.event .close] := ⟨op :: back, h.trans htranscript⟩
    obtain hall | hbefore := List.prefix_concat_iff.mp hinit
    · have hlength := congrArg List.length (h.trans htranscript)
      rw [hall, List.length_append, List.length_cons] at hlength
      omega
    · exact fun hclose => hopen (hbefore.subset hclose)
  · have hlength := congrArg List.length (h.trans htranscript)
    rw [List.length_append, List.length_cons, List.length_singleton] at hlength
    have hnil : front = [] := List.length_eq_zero_iff.mp (by omega)
    rw [hnil]
    exact List.not_mem_nil

/-- Of a request that the process survives, the connection is closed unless it makes `dispatch`
throw. -/
theorem Request.close_mem_iff {request : Request} (hsurvives : request.overruns = false) :
    .event .close ∈ request.transcript ↔ ¬ request.Leaks := by
  obtain ⟨hleaks, front, htranscript, -⟩ | ⟨hleaves, htranscript⟩ := request.transcript_cases
  · refine iff_of_true ?_ hleaks
    rw [htranscript]
    exact List.mem_append_right _ List.mem_cons_self
  · have hleaks := hleaves.resolve_left (ne_true_of_eq_false hsurvives)
    refine iff_of_false ?_ (not_not_intro hleaks)
    rw [htranscript, List.mem_singleton]
    exact Operation.noConfusion

/-- One more operation is seen by the connection that it hits. -/
theorem arrived_concat (acts : List Act) (client : Client) (op : Operation) (hit number : Nat) :
    arrived (acts ++ [⟨client, op, some hit⟩]) number =
      arrived acts number ++ if hit = number then [op] else [] := by
  unfold arrived
  rw [List.filterMap_append]
  by_cases h : hit = number <;> simp [h]

/-- A connection that nothing hit has seen nothing. -/
theorem arrived_eq_nil {acts : List Act} {number : Nat}
    (h : ∀ act ∈ acts, act.hit ≠ some number) : arrived acts number = [] := by
  refine List.filterMap_eq_nil_iff.mpr fun act hact => ?_
  rw [if_neg (h act hact)]

/-! ## The invariant -/

/-- The connection was not received from yet. -/
def Waits (s : Process) (client : Client) : Prop :=
  client ∈ s.pool.tasks ++ s.point.hand ∨
    ∃ who, currentOf s.pool.workers who = [client] ∧ s.tasks who = none

/-- Operations hit the connections that they are for. The open descriptors lead to the connections
that have seen no `close`. A connection has seen nothing before its `recv`, and then the operations
of its request but those that its task has left. -/
structure Isolated (s : Process) : Prop where
  hits : ∀ act ∈ s.acts, act.client ∈ s.clients ∧ act.hit = some act.client.number
  live : ∀ client ∈ s.clients, .event .close ∉ arrived s.acts client.number →
    s.table client.socket = some client.number
  behind : ∀ socket number, s.table socket = some number → ∃ client ∈ s.clients,
    client.socket = socket ∧ client.number = number ∧ .event .close ∉ arrived s.acts number
  waiting : ∀ client, Waits s client → arrived s.acts client.number = []
  working : ∀ who task, s.tasks who = some task →
    currentOf s.pool.workers who = [task.request.client] ∧
      arrived s.acts task.request.client.number ++ socketCalls task.rest = task.request.transcript
  served : ∀ request ∈ s.served, arrived s.acts request.client.number = request.transcript
  finished : s.served.map Request.client = s.pool.finished.map Execution.task

section Steps

variable {s s' : Process}

/-- A step that performs nothing, and moves no connection but from `main` to the queue, keeps the
connections isolated. -/
theorem Isolated.of_frame (hs : Isolated s) (hacts : s'.acts = s.acts) (htable : s'.table = s.table)
    (hclients : s'.clients = s.clients) (htasks : s'.tasks = s.tasks)
    (hserved : s'.served = s.served) (hfinished : s'.pool.finished = s.pool.finished)
    (hcurrent : currentOf s'.pool.workers = currentOf s.pool.workers)
    (hqueue : s'.pool.tasks ++ s'.point.hand = s.pool.tasks ++ s.point.hand) : Isolated s' where
  hits := by rw [hacts, hclients]; exact hs.hits
  live := by rw [hacts, hclients, htable]; exact hs.live
  behind := by rw [hacts, hclients, htable]; exact hs.behind
  waiting := by unfold Waits; rw [hacts, hcurrent, hqueue, htasks]; exact hs.waiting
  working := by rw [hacts, hcurrent, htasks]; exact hs.working
  served := by rw [hacts, hserved]; exact hs.served
  finished := by rw [hserved, hfinished]; exact hs.finished

/-- A new connection gets a descriptor that leads nowhere. -/
theorem Isolated.accept (hs : Isolated s) (hac : Accounted s) {socket : Nat}
    (hfree : s.table socket = none) :
    Isolated (s.accept socket) := by
  have hfresh : arrived s.acts s.clients.length = [] := by
    refine arrived_eq_nil fun act hact hhit => ?_
    obtain ⟨hclient, hown⟩ := hs.hits act hact
    have hsame := Option.some.inj (hown.symm.trans hhit)
    exact Nat.ne_of_lt (hac.number_lt hclient) hsame
  constructor
  case working => exact hs.working
  case served => exact hs.served
  case finished => exact hs.finished
  case hits =>
    intro act hact
    obtain ⟨hclient, hown⟩ := hs.hits act hact
    exact ⟨List.mem_append_left _ hclient, hown⟩
  case live =>
    intro client hclient hopen
    show Function.update s.table socket _ client.socket = _
    obtain hclient | hnew := List.mem_append.mp hclient
    · have hlive := hs.live client hclient hopen
      have hne : client.socket ≠ socket := by
        rintro rfl
        rw [hfree] at hlive
        cases hlive
      rw [Function.update_of_ne hne]
      exact hlive
    · obtain rfl := List.mem_singleton.mp hnew
      exact Function.update_self ..
  case behind =>
    intro other number hother
    have hother : Function.update s.table socket (some s.clients.length) other = some number :=
      hother
    by_cases heq : other = socket
    · subst heq
      rw [Function.update_self] at hother
      obtain rfl := Option.some.inj hother
      refine ⟨⟨other, s.clients.length⟩, List.mem_append_right _ List.mem_cons_self, rfl, rfl, ?_⟩
      show _ ∉ arrived s.acts s.clients.length
      rw [hfresh]
      exact List.not_mem_nil
    · rw [Function.update_of_ne heq] at hother
      obtain ⟨client, hclient, hrest⟩ := hs.behind other number hother
      exact ⟨client, List.mem_append_left _ hclient, hrest⟩
  case waiting =>
    intro client hwaits
    obtain hplace | hworker := hwaits
    · obtain hqueue | hnew := List.mem_append.mp hplace
      · exact hs.waiting client (.inl (List.mem_append_left _ hqueue))
      · obtain rfl := List.mem_singleton.mp hnew
        exact hfresh
    · exact hs.waiting client (.inr hworker)

section Operate

variable (hs : Isolated s) (hac : Accounted s) {who : Nat} {request : Request} {op : Operation}
  {rest : List Event} (hcurrent : currentOf s.pool.workers who = [request.client])
  (hleft : arrived s.acts request.client.number ++ op :: socketCalls rest = request.transcript)

include hs hac hcurrent hleft

/-- The descriptor of a task that has operations left leads to its connection. -/
theorem Isolated.hit : s.table request.client.socket = some request.client.number :=
  hs.live request.client (hac.mem_of_running hcurrent) (Request.closed_last hleft)

/-- An operation for a connection is seen by that connection and no other. -/
theorem Isolated.arrived_operate (number : Nat) :
    arrived (s.operate request.client op).acts number =
      arrived s.acts number ++ if request.client.number = number then [op] else [] := by
  show arrived (s.acts ++ [⟨request.client, op, s.table request.client.socket⟩]) number = _
  rw [hs.hit hac hcurrent hleft]
  exact arrived_concat ..

/-- The other connections see nothing of an operation. -/
theorem Isolated.arrived_operate_other {other : Client} (hmem : other ∈ s.clients)
    (hne : other ≠ request.client) :
    arrived (s.operate request.client op).acts other.number = arrived s.acts other.number := by
  have hclient := hac.mem_of_running hcurrent
  rw [hs.arrived_operate hac hcurrent hleft,
    if_neg fun hsame => hne (hac.eq_of_number hclient hmem hsame.symm), List.append_nil]

/-- A connection that has seen no `close` is still behind its descriptor. -/
theorem Isolated.live_operate {client : Client} (hmem : client ∈ s.clients)
    (hopen : .event .close ∉ arrived (s.operate request.client op).acts client.number) :
    (s.operate request.client op).table client.socket = some client.number := by
  rw [hs.arrived_operate hac hcurrent hleft, List.mem_append, not_or] at hopen
  have hlive := hs.live client hmem hopen.1
  show (if op = .event .close then _ else s.table) client.socket = _
  split
  · next hclose =>
    -- two open connections never share a descriptor
    have hne : client.socket ≠ request.client.socket := by
      intro hsame
      rw [hsame, hs.hit hac hcurrent hleft] at hlive
      rw [if_pos (Option.some.inj hlive), hclose] at hopen
      exact hopen.2 List.mem_cons_self
    rw [Function.update_of_ne hne]
    exact hlive
  · exact hlive

/-- After an operation, behind an open descriptor is a connection that has seen no `close`. -/
theorem Isolated.behind_operate {socket number : Nat}
    (hsocket : (s.operate request.client op).table socket = some number) :
    ∃ client ∈ s.clients, client.socket = socket ∧ client.number = number ∧
      .event .close ∉ arrived (s.operate request.client op).acts number := by
  have hsocket : (if op = .event .close then
      Function.update s.table request.client.socket none else s.table) socket = some number :=
    hsocket
  split at hsocket
  · -- the descriptor that is closed leads nowhere any more
    have hne : socket ≠ request.client.socket := by
      rintro rfl
      rw [Function.update_self] at hsocket
      cases hsocket
    rw [Function.update_of_ne hne] at hsocket
    obtain ⟨client, hmem, rfl, rfl, hopen⟩ := hs.behind socket number hsocket
    refine ⟨client, hmem, rfl, rfl, ?_⟩
    rw [hs.arrived_operate_other hac hcurrent hleft hmem
      fun hsame => hne (congrArg Client.socket hsame)]
    exact hopen
  · next hopens =>
    obtain ⟨client, hmem, rfl, rfl, hopen⟩ := hs.behind socket number hsocket
    refine ⟨client, hmem, rfl, rfl, ?_⟩
    rw [hs.arrived_operate hac hcurrent hleft, List.mem_append, not_or]
    refine ⟨hopen, ?_⟩
    split
    · exact fun hclose => hopens (List.mem_singleton.mp hclose).symm
    · exact List.not_mem_nil

/-- A connection that waits is not that of the task. -/
theorem Isolated.waiting_operate {client : Client}
    (hwaits : Waits ((s.operate request.client op).setTask who (some ⟨request, rest⟩)) client) :
    arrived (s.operate request.client op).acts client.number = [] := by
  obtain hplace | ⟨other, hworker, hidle⟩ := hwaits
  · have hmem : client ∈ s.clients := by
      rw [← hac.order, List.append_assoc]
      exact List.mem_append_right _ hplace
    have hne : client ≠ request.client := by
      rintro rfl
      exact hac.not_waiting_of_running hcurrent hplace
    rw [hs.arrived_operate_other hac hcurrent hleft hmem hne]
    exact hs.waiting client (.inl hplace)
  · have hidle : Function.update s.tasks who (some ⟨request, rest⟩) other = none := hidle
    have hne : other ≠ who := by
      rintro rfl
      rw [Function.update_self] at hidle
      cases hidle
    rw [Function.update_of_ne hne] at hidle
    have hclients : client ≠ request.client := by
      rintro rfl
      exact hne (hac.running_unique hcurrent hworker)
    rw [hs.arrived_operate_other hac hcurrent hleft (hac.mem_of_running hworker) hclients]
    exact hs.waiting client (.inr ⟨other, hworker, hidle⟩)

/-- The task has one operation less before it, and the others have as many. -/
theorem Isolated.working_operate {other : Nat} {task : Task}
    (htask : Function.update s.tasks who (some ⟨request, rest⟩) other = some task) :
    currentOf s.pool.workers other = [task.request.client] ∧
      arrived (s.operate request.client op).acts task.request.client.number ++
        socketCalls task.rest = task.request.transcript := by
  by_cases heq : other = who
  · subst heq
    rw [Function.update_self] at htask
    obtain rfl := Option.some.inj htask
    refine ⟨hcurrent, ?_⟩
    rw [hs.arrived_operate hac hcurrent hleft, if_pos rfl, List.append_assoc]
    exact hleft
  · rw [Function.update_of_ne heq] at htask
    obtain ⟨hworker, hrest⟩ := hs.working other task htask
    have hne : task.request.client ≠ request.client := fun hsame =>
      heq (hac.running_unique hcurrent (hsame ▸ hworker))
    refine ⟨hworker, ?_⟩
    rw [hs.arrived_operate_other hac hcurrent hleft (hac.mem_of_running hworker) hne]
    exact hrest

/-- The next operation of a task keeps the connections isolated. -/
theorem Isolated.operate :
    Isolated ((s.operate request.client op).setTask who (some ⟨request, rest⟩)) where
  finished := hs.finished
  live _ hmem hopen := hs.live_operate hac hcurrent hleft hmem hopen
  behind _ _ hsocket := hs.behind_operate hac hcurrent hleft hsocket
  waiting _ hwaits := hs.waiting_operate hac hcurrent hleft hwaits
  working _ _ htask := hs.working_operate hac hcurrent hleft htask
  hits := by
    intro act hact
    obtain hact | hnew := List.mem_append.mp hact
    · exact hs.hits act hact
    · obtain rfl := List.mem_singleton.mp hnew
      exact ⟨hac.mem_of_running hcurrent, hs.hit hac hcurrent hleft⟩
  served := by
    intro done hdone
    have hfinished : done.client ∈ s.pool.finished.map Execution.task := by
      rw [← hs.finished]
      exact List.mem_map_of_mem hdone
    have hne : done.client ≠ request.client := fun hsame =>
      hac.not_finished_of_running hcurrent (hsame ▸ hfinished)
    exact (hs.arrived_operate_other hac hcurrent hleft (hac.mem_of_finished hfinished) hne).trans
      (hs.served done hdone)

end Operate

/-- A task passes over an event that is no call on its descriptor. -/
theorem Isolated.skip (hs : Isolated s) {who : Nat} {request : Request} {e : Event}
    {rest : List Event} (htask : s.tasks who = some ⟨request, e :: rest⟩)
    (hevent : onSocket e = false) : Isolated (s.setTask who (some ⟨request, rest⟩)) := by
  have hcalls : socketCalls (e :: rest) = socketCalls rest := by
    rw [socketCalls, List.filter_cons_of_neg (ne_true_of_eq_false hevent)]
    rfl
  refine ⟨hs.hits, hs.live, hs.behind, fun client hwaits => ?_, fun other task hother => ?_,
    hs.served, hs.finished⟩
  · obtain hplace | ⟨other, hworker, hidle⟩ := hwaits
    · exact hs.waiting client (.inl hplace)
    · have hidle : Function.update s.tasks who (some ⟨request, rest⟩) other = none := hidle
      have hne : other ≠ who := by
        rintro rfl
        rw [Function.update_self] at hidle
        cases hidle
      rw [Function.update_of_ne hne] at hidle
      exact hs.waiting client (.inr ⟨other, hworker, hidle⟩)
  · have hother : Function.update s.tasks who (some ⟨request, rest⟩) other = some task := hother
    by_cases heq : other = who
    · subst heq
      rw [Function.update_self] at hother
      obtain rfl := Option.some.inj hother
      obtain ⟨hworker, hrest⟩ := hs.working other _ htask
      refine ⟨hworker, ?_⟩
      rw [← hcalls]
      exact hrest
    · rw [Function.update_of_ne heq] at hother
      exact hs.working other task hother

/-- A worker takes a connection out of the queue. -/
theorem Isolated.pop (hs : Isolated s) {who : Nat} {worker : Worker Client} {client : Client}
    {tasks : List Client} (hworker : s.pool.workers[who]? = some worker)
    (hidle : worker.current = []) (htasks : s.pool.tasks = client :: tasks) :
    Isolated { s with pool := { s.pool.setWorker who (.running client) with
      tasks := tasks, started := s.pool.started ++ [⟨who, client⟩] } } := by
  have hcurrent (other : Nat) : currentOf (s.pool.workers.set who (.running client)) other =
      if who = other then [client] else currentOf s.pool.workers other :=
    currentOf_set hworker _ other
  have hnone : currentOf s.pool.workers who = [] := by
    rw [currentOf, hworker, Option.map_some, hidle]
    rfl
  refine ⟨hs.hits, hs.live, hs.behind, fun other hwaits => ?_, fun other task htask => ?_,
    hs.served, hs.finished⟩
  · obtain hplace | ⟨which, hcurrently, hfree⟩ := hwaits
    · refine hs.waiting other (.inl ?_)
      rw [htasks, List.cons_append]
      exact List.mem_cons_of_mem _ hplace
    · have hcurrently : currentOf (s.pool.workers.set who (.running client)) which = [other] :=
        hcurrently
      rw [hcurrent] at hcurrently
      split at hcurrently
      · obtain ⟨rfl, -⟩ := List.cons.inj hcurrently
        refine hs.waiting client (.inl ?_)
        rw [htasks]
        exact List.mem_cons_self
      · exact hs.waiting other (.inr ⟨which, hcurrently, hfree⟩)
  · obtain ⟨hcurrently, hrest⟩ := hs.working other task htask
    refine ⟨?_, hrest⟩
    show currentOf (s.pool.workers.set who (.running client)) other = _
    rw [hcurrent, if_neg, hcurrently]
    rintro rfl
    rw [hnone] at hcurrently
    cases hcurrently

/-- A task ends with nothing left to do. -/
theorem Isolated.finish (hs : Isolated s) {who : Nat} {request : Request} {client : Client}
    (htask : s.tasks who = some ⟨request, []⟩)
    (hworker : s.pool.workers[who]? = some (.running client)) :
    Isolated { s.setTask who none with
      pool := { s.pool.setWorker who .looping with
        finished := s.pool.finished ++ [⟨who, client⟩] }
      served := s.served ++ [request] } := by
  obtain ⟨hrunning, hrest⟩ := hs.working who _ htask
  have hsame : client = request.client := by
    rw [currentOf, hworker] at hrunning
    exact (List.cons.inj hrunning).1
  have hcurrent (other : Nat) : currentOf (s.pool.workers.set who .looping) other =
      if who = other then [] else currentOf s.pool.workers other :=
    currentOf_set hworker _ other
  constructor
  case hits => exact hs.hits
  case live => exact hs.live
  case behind => exact hs.behind
  case waiting =>
    intro other hwaits
    obtain hplace | ⟨which, hcurrently, hfree⟩ := hwaits
    · exact hs.waiting other (.inl hplace)
    · have hcurrently : currentOf (s.pool.workers.set who .looping) which = [other] := hcurrently
      have hfree : Function.update s.tasks who none which = none := hfree
      rw [hcurrent] at hcurrently
      split at hcurrently
      · cases hcurrently
      · next hne =>
        rw [Function.update_of_ne (Ne.symm hne)] at hfree
        exact hs.waiting other (.inr ⟨which, hcurrently, hfree⟩)
  case working =>
    intro other task hother
    have hother : Function.update s.tasks who none other = some task := hother
    have hne : other ≠ who := by
      rintro rfl
      rw [Function.update_self] at hother
      cases hother
    rw [Function.update_of_ne hne] at hother
    obtain ⟨hcurrently, hleft⟩ := hs.working other task hother
    refine ⟨?_, hleft⟩
    show currentOf (s.pool.workers.set who .looping) other = _
    rw [hcurrent, if_neg (Ne.symm hne)]
    exact hcurrently
  case served =>
    intro done hdone
    obtain hearlier | hnew := List.mem_append.mp hdone
    · exact hs.served done hearlier
    · obtain rfl := List.mem_singleton.mp hnew
      rw [← hrest, socketCalls]
      exact (List.append_nil _).symm
  case finished =>
    show (s.served ++ [request]).map Request.client =
      (s.pool.finished ++ [Execution.mk who client]).map Execution.task
    rw [List.map_append, List.map_append, hs.finished, hsame]
    rfl

/-- Every step keeps the connections isolated. -/
theorem Isolated.step {l : Label} (hs : Isolated s) (hac : Accounted s) (h : Step s l s') :
    Isolated s' := by
  cases h with
  | signal => exact hs.of_frame rfl rfl rfl rfl rfl rfl rfl rfl
  | test hpoint =>
      refine hs.of_frame rfl rfl rfl rfl rfl rfl rfl ?_
      rw [hpoint]
      cases s.shutdownRequested <;> rfl
  | @poll ready hpoint =>
      refine hs.of_frame rfl rfl rfl rfl rfl rfl rfl ?_
      rw [hpoint]
      cases ready <;> rfl
  | acceptNothing hpoint | closeListener hpoint | join hpoint =>
      refine hs.of_frame rfl rfl rfl rfl rfl rfl rfl ?_
      rw [hpoint]
      rfl
  | accept hpoint hfree => exact hs.accept hac hfree
  | push hpoint hpool =>
      cases ThreadPool.step_of_next hpool
      refine hs.of_frame rfl rfl rfl rfl rfl rfl rfl ?_
      rw [hpoint]
      exact List.append_nil _
  | notify hpoint hpool =>
      cases ThreadPool.step_of_next hpool with
      | notify hpushed hnotified =>
          refine hs.of_frame rfl rfl rfl rfl rfl rfl hnotified.currentOf_eq ?_
          rw [hpoint]
          rfl
  | destroy hpoint hpool =>
      cases ThreadPool.step_of_next hpool
      refine hs.of_frame rfl rfl rfl rfl rfl rfl rfl ?_
      rw [hpoint]
      rfl
  | notifyAll hpoint hpool =>
      cases ThreadPool.step_of_next hpool
      refine hs.of_frame rfl rfl rfl rfl rfl rfl (currentOf_map_wake _) ?_
      rw [hpoint]
      rfl
  | check hpool =>
      cases ThreadPool.step_of_next hpool with
      | @check _ worker _ hworker hfree hchecked =>
          have hidle : worker.current = [] := by
            obtain rfl | rfl := hfree <;> rfl
          cases hchecked with
          | block hempty hshutdown =>
              exact hs.of_frame rfl rfl rfl rfl rfl rfl
                (currentOf_set_of_eq hworker hidle.symm) rfl
          | exit hempty hshutdown =>
              exact hs.of_frame rfl rfl rfl rfl rfl rfl
                (currentOf_set_of_eq hworker hidle.symm) rfl
          | pop htasks => exact hs.pop hworker hidle htasks
  | spurious hpool =>
      cases ThreadPool.step_of_next hpool with
      | spurious hworker =>
          exact hs.of_frame rfl rfl rfl rfl rfl rfl (currentOf_set_of_eq hworker rfl) rfl
  | @recv who request hworker hidle hfits hsurvives =>
      have hcurrent : currentOf s.pool.workers who = [request.client] := by
        rw [currentOf, hworker]
        rfl
      refine hs.operate hac hcurrent ?_
      -- before its `recv` a connection has seen nothing: all of the transcript is left
      rw [hs.waiting request.client (.inr ⟨who, hcurrent, hidle⟩)]
      rfl
  | @perform who request e rest htask =>
      unfold Process.perform
      cases hevent : onSocket e with
      | false => exact hs.skip htask hevent
      | true =>
          obtain ⟨hcurrent, hrest⟩ := hs.working who _ htask
          refine hs.operate hac hcurrent ?_
          rw [← hrest, socketCalls, socketCalls, List.filter_cons_of_pos hevent]
          rfl
  | finish htask hpool =>
      cases ThreadPool.step_of_next hpool with
      | finish hworker => exact hs.finish htask hworker

end Steps

/-- Connections are isolated after every run. -/
theorem isolated_of_run {nWorkers : Nat} (hworkers : 0 < nWorkers) {ls : List Label}
    {s : Process} (h : run next ls (Process.init nWorkers) = some s) : Isolated s := by
  refine run_induction (P := fun _ => Isolated) ?_ ?_ h
  · constructor
    case waiting => exact fun _ _ => rfl
    case finished => rfl
    case behind =>
      intro socket number hsocket
      cases hsocket
    case working =>
      intro who task htask
      cases htask
    all_goals
      intro _ hmem
      exact absurd hmem List.not_mem_nil
  · intro ls s l s' hrun hs hnext
    exact hs.step (accounted_of_run hworkers hrun).1 (step_of_next hnext)

/-- The process survives the requests that it has received. -/
structure Survives (s : Process) : Prop where
  working : ∀ who task, s.tasks who = some task → task.request.overruns = false
  served : ∀ request ∈ s.served, request.overruns = false

/-- A step that gives the process a task, of a request that it survives, lets it survive. -/
theorem Survives.set_task {s middle : Process} (hs : Survives s) {who : Nat} {task : Task}
    (htask : task.request.overruns = false) (htasks : middle.tasks = s.tasks)
    (hserved : middle.served = s.served) : Survives (middle.setTask who (some task)) where
  served := hserved ▸ hs.served
  working := by
    intro other found hfound
    have hfound : Function.update middle.tasks who (some task) other = some found := hfound
    by_cases heq : other = who
    · rw [heq, Function.update_self] at hfound
      rwa [← Option.some.inj hfound]
    · rw [Function.update_of_ne heq, htasks] at hfound
      exact hs.working other found hfound

/-- Every step keeps to requests that the process survives. -/
theorem Survives.step {s s' : Process} {l : Label} (hs : Survives s) (h : Step s l s') :
    Survives s' := by
  cases h with
  | recv hworker hidle hfits hsurvives => exact hs.set_task hsurvives rfl rfl
  | @perform who request e rest htask =>
      have hrequest : request.overruns = false := hs.working who _ htask
      refine hs.set_task hrequest ?_ ?_
      all_goals
        unfold Process.perform
        split <;> rfl
  | @finish who request pool htask hpool =>
      refine ⟨fun other task hother => ?_, fun done hdone => ?_⟩
      · have hother : Function.update s.tasks who none other = some task := hother
        have hne : other ≠ who := by
          rintro rfl
          rw [Function.update_self] at hother
          cases hother
        rw [Function.update_of_ne hne] at hother
        exact hs.working other task hother
      · obtain hearlier | hnew := List.mem_append.mp hdone
        · exact hs.served done hearlier
        · obtain rfl := List.mem_singleton.mp hnew
          exact hs.working who _ htask
  | _ => exact ⟨hs.working, hs.served⟩

/-- In every run the process has survived the requests that it has received. -/
theorem survives_of_run {nWorkers : Nat} {ls : List Label} {s : Process}
    (h : run next ls (Process.init nWorkers) = some s) : Survives s := by
  refine run_induction (P := fun _ => Survives) ?_ ?_ h
  · constructor
    · intro who task htask
      cases htask
    · intro request hmem
      exact absurd hmem List.not_mem_nil
  · exact fun _ _ _ _ _ hs hnext => hs.step (step_of_next hnext)

/-- A worker that has returned has nothing in its hands. -/
theorem current_eq_nil_of_exited {workers : List (Worker Client)}
    (hall : ∀ worker ∈ workers, worker = .exited) (who : Nat) : currentOf workers who = [] := by
  unfold currentOf
  cases hworker : workers[who]? with
  | none => rfl
  | some worker =>
      rw [hall worker (List.mem_of_getElem? hworker)]
      rfl

/-- When `main` has returned, so have all workers. -/
theorem exited_of_returned {nWorkers : Nat} {ls : List Label} {s : Process}
    (h : run next ls (Process.init nWorkers) = some s) (hreturned : s.point = .returned) :
    ∀ worker ∈ s.pool.workers, worker = .exited := by
  refine run_induction (P := fun _ s => s.point = .returned →
    ∀ worker ∈ s.pool.workers, worker = .exited) ?_ ?_ h hreturned
  · exact fun hpoint => Point.noConfusion hpoint
  · intro ls s l s' hrun hs hnext hpoint
    cases step_of_next hnext with
    | join hjoining hall => exact hall
    | signal => exact hs hpoint
    | recv hworker hidle hfits hsurvives => exact hs hpoint
    | perform htask =>
        unfold Process.perform at hpoint ⊢
        split at hpoint <;> split <;> exact hs hpoint
    | check hpool =>
        cases ThreadPool.step_of_next hpool with
        | check hworker hfree hchecked =>
            -- a worker that has returned checks nothing any more
            have hexited := hs hpoint _ (List.mem_of_getElem? hworker)
            obtain rfl | rfl := hfree <;> cases hexited
    | spurious hpool =>
        cases ThreadPool.step_of_next hpool with
        | spurious hworker => cases hs hpoint _ (List.mem_of_getElem? hworker)
    | finish htask hpool =>
        cases ThreadPool.step_of_next hpool with
        | finish hworker => cases hs hpoint _ (List.mem_of_getElem? hworker)
    | test hbefore =>
        dsimp only at hpoint
        split at hpoint <;> cases hpoint
    | poll hbefore =>
        dsimp only at hpoint
        split at hpoint <;> cases hpoint
    | _ => cases hpoint

/-- In every run of the process, with at least one worker, every operation acts on the connection
that it is for, although descriptors are used again, and a connection that is done with has seen
its `recv` and the calls of its own request, in their order, and nothing else. When `main` has
returned, each accepted connection has been served once, and those whose requests make `dispatch`
throw are the ones that an open descriptor still leads to. -/
theorem connections_isolated {nWorkers : Nat} (hworkers : 0 < nWorkers) {ls : List Label}
    {s : Process} (h : run next ls (Process.init nWorkers) = some s) :
    (∀ act ∈ s.acts, act.hit = some act.client.number) ∧
      (∀ request ∈ s.served, arrived s.acts request.client.number = request.transcript) ∧
      (s.point = .returned → (s.served.map Request.client).Perm s.clients ∧
        ∀ request ∈ s.served,
          s.table request.client.socket = some request.client.number ↔ request.Leaks) := by
  obtain ⟨hac, hdrains⟩ := accounted_of_run hworkers h
  have hs := isolated_of_run hworkers h
  refine ⟨fun act hact => (hs.hits act hact).2, hs.served, fun hreturned => ?_⟩
  have hall := exited_of_returned h hreturned
  -- a drained pool has started, and ended, a task for every connection
  have hclients : s.pool.started.map Execution.task = s.clients := by
    have hhand : s.point.hand = [] := by
      rw [hreturned]
      rfl
    have horder := hac.order
    rwa [hdrains.drained hall, hhand, List.append_nil, List.append_nil] at horder
  have hperm : s.pool.finished.Perm s.pool.started := by
    refine perm_of_tasksOf_eq fun who => ?_
    rw [hac.calls, current_eq_nil_of_exited hall, List.append_nil]
  refine ⟨?_, fun request hrequest => ?_⟩
  · rw [hs.finished, ← hclients]
    exact hperm.map _
  · have hmem : request.client ∈ s.clients := by
      refine hac.mem_of_finished ?_
      rw [← hs.finished]
      exact List.mem_map_of_mem hrequest
    have hseen := hs.served request hrequest
    have hclose := Request.close_mem_iff ((survives_of_run h).served request hrequest)
    constructor
    · intro hopen
      obtain ⟨-, -, -, -, hnone⟩ := hs.behind _ _ hopen
      rw [hseen] at hnone
      exact not_not.mp fun hleaks => hnone (hclose.mpr hleaks)
    · intro hleaks
      refine hs.live _ hmem ?_
      rw [hseen]
      exact fun hmem => hclose.mp hmem hleaks

/-- One worker, a client that sends nothing, and one that gets its descriptor when it is closed and
makes `dispatch` throw. -/
def reusingHistory : List Label :=
  [.test, .poll true, .accept (some 5), .push, .notify none, .check 0,
    .recv 0 .bare Server.init none, .perform 0, .test, .poll true, .accept (some 5), .push,
    .notify none, .finish 0, .check 0, .recv 0 .bare Server.init (some leakingRequest), .finish 0,
    .signal, .test, .closeListener, .destroy, .check 0, .notifyAll, .join]

/-- In `reusingHistory` the second connection gets the descriptor of the first one, sees nothing of
it, and stays open. -/
theorem connections_isolated_reusing :
    ∃ s, run next reusingHistory (Process.init 1) = some s ∧
      s.clients = [⟨5, 0⟩, ⟨5, 1⟩] ∧ s.table 5 = some 1 ∧
      (∀ act ∈ s.acts, act.hit = some act.client.number) ∧
      (∀ request ∈ s.served, arrived s.acts request.client.number = request.transcript) ∧
      (s.point = .returned → (s.served.map Request.client).Perm s.clients ∧
        ∀ request ∈ s.served,
          s.table request.client.socket = some request.client.number ↔ request.Leaks) := by
  have hends : (run next reusingHistory (Process.init 1)).map (fun s => (s.clients, s.table 5)) =
      some ([⟨5, 0⟩, ⟨5, 1⟩], some 1) := by decide +kernel
  obtain ⟨s, hrun, hs⟩ := Option.map_eq_some_iff.mp hends
  exact ⟨s, hrun, congrArg Prod.fst hs, congrArg Prod.snd hs,
    connections_isolated Nat.one_pos hrun⟩

end Dvws.Main
