import Dvws.Deployment.Received
import Dvws.Router.Dispatch
import Dvws.ThreadPool.Pool

/-!
# The whole process

`main`, the signal handler and the workers of the pool as one transition function. A step is one
system call or one critical section of one thread, and the labels hold what the surroundings decide:
what `poll`, `accept` and `recv` return, and what the process-wide variables hold when a request is
dispatched. A descriptor that was closed may be given to the next connection, so the model keeps,
beside the descriptor that the program has, which connection it leads to.
-/

namespace Dvws.Main

open Transition ThreadPool

/-- A connection: the descriptor that `accept` returned for it, and how many connections were
accepted before. The program knows the descriptor only. -/
structure Client where
  socket : Nat
  number : Nat
  deriving DecidableEq, Repr

/-- Where `main` is: at the test of the flag, at `poll`, at `accept`, before `submit`, between the
push and the notification of `submit`, behind the loop, behind the `close` of the listen socket,
between the halves of the destructor of the pool, at its `join` calls, or returned. -/
inductive Point where
  | testing
  | polling
  | accepting
  | submitting (client : Client)
  | notifying
  | leaving
  | destroying
  | waking
  | joining
  | returned
  deriving DecidableEq, Repr

/-- The connection in the hands of `main`. -/
def Point.hand : Point → List Client
  | .submitting client => [client]
  | _ => []

/-- What a task received of its connection, and the surroundings in which it handles that. There is
no data at the end of the connection and after an error. -/
structure Request where
  client : Client
  plat : Platform
  server : Server
  data : Option Bytes

/-- The task of `main` behind its `recv`. -/
def Request.handle (request : Request) : Handler Unit :=
  match request.data with
  | none => closeSocket
  | some data => dispatch request.plat (requestBuffer data)

/-- How it goes. -/
def Request.outcome (request : Request) : Effect.Outcome Server Event Exn Unit :=
  request.handle request.server

/-- It leaves by an exception. -/
def Request.throws (request : Request) : Bool :=
  match request.outcome.value with
  | .ok _ => false
  | .error _ => true

/-- It runs over the buffer of the target, which ends the process. -/
def Request.overruns (request : Request) : Bool :=
  match request.outcome.value with
  | .error .overrun => true
  | _ => false

/-- A task that has received its request, and what it has still to do. -/
structure Task where
  request : Request
  rest : List Event

/-- An operation on a descriptor. -/
inductive Operation where
  | recv
  | event (e : Event)
  deriving DecidableEq, Repr

/-- The events that are calls on the descriptor of the client. -/
def onSocket : Event → Bool
  | .send .. => true
  | .receive .. => true
  | .close => true
  | _ => false

/-- An operation that was performed for a client, and the connection that its descriptor led to. -/
structure Act where
  client : Client
  operation : Operation
  hit : Option Nat
  deriving DecidableEq, Repr

/-- The process: the threads, the task of each worker that has received, the connection behind each
open descriptor, and the record of what happened. -/
structure Process where
  point : Point
  shutdownRequested : Bool
  pool : Pool Client
  tasks : Nat → Option Task
  table : Nat → Option Nat
  clients : List Client
  acts : List Act
  served : List Request

/-- The process when `main` enters its loop. -/
def Process.init (nWorkers : Nat) : Process :=
  ⟨.testing, false, .init nWorkers, fun _ => none, fun _ => none, [], [], []⟩

/-- The steps of `main` in the order of the source, the signal, and the steps of a worker: those of
`worker_loop`, the `recv` of a task, its next call, and its end. -/
inductive Label where
  | signal
  | test
  | poll (ready : Bool)
  | accept (socket : Option Nat)
  | push
  | notify (target : Option Nat)
  | closeListener
  | destroy
  | notifyAll
  | join
  | check (who : Nat)
  | spurious (who : Nat)
  | recv (who : Nat) (plat : Platform) (server : Server) (data : Option Bytes)
  | perform (who : Nat)
  | finish (who : Nat)

/-- A thread is in its part of the pool. -/
def Process.inPool (s : Process) (l : ThreadPool.Label Client) : Option Process :=
  (ThreadPool.next s.pool l).map fun pool => { s with pool := pool }

/-- `accept` gives a connection a descriptor that is not in use. -/
def Process.accept (s : Process) (socket : Nat) : Process :=
  { s with
    point := .submitting ⟨socket, s.clients.length⟩
    table := Function.update s.table socket (some s.clients.length)
    clients := s.clients ++ [⟨socket, s.clients.length⟩] }

/-- A task calls an operation on the descriptor of its client, which acts on the connection that is
behind the descriptor then. -/
def Process.operate (s : Process) (client : Client) (operation : Operation) : Process :=
  { s with
    table :=
      if operation = .event .close then Function.update s.table client.socket none else s.table
    acts := s.acts ++ [⟨client, operation, s.table client.socket⟩] }

/-- The worker has this task left. -/
def Process.setTask (s : Process) (who : Nat) (task : Option Task) : Process :=
  { s with tasks := Function.update s.tasks who task }

/-- The next call of a task. -/
def Process.perform (s : Process) (client : Client) (e : Event) : Process :=
  if onSocket e then s.operate client (.event e) else s

/-- What `recv` can return into the buffer of `main`. -/
def fitsBuffer (data : Option Bytes) : Bool :=
  data.all fun data => 0 < data.length && data.length < maxRequestSize

/-- One step. A call that waits for the surroundings is a step when they give it a result. The
process has no step behind a request that overruns the buffer. -/
def next (s : Process) : Label → Option Process
  | .signal => some { s with shutdownRequested := true }
  | .test =>
      if s.point = .testing then
        some { s with point := if s.shutdownRequested then .leaving else .polling }
      else none
  | .poll ready =>
      if s.point = .polling then
        some { s with point := if ready then .accepting else .testing }
      else none
  | .accept none => if s.point = .accepting then some { s with point := .testing } else none
  | .accept (some socket) =>
      if s.point = .accepting ∧ s.table socket = none then some (s.accept socket) else none
  | .push =>
      match s.point with
      | .submitting client => { s with point := .notifying }.inPool (.push client)
      | _ => none
  | .notify target =>
      if s.point = .notifying then { s with point := .testing }.inPool (.notify target) else none
  | .closeListener =>
      if s.point = .leaving then some { s with point := .destroying } else none
  | .destroy =>
      if s.point = .destroying then { s with point := .waking }.inPool .destroy else none
  | .notifyAll =>
      if s.point = .waking then { s with point := .joining }.inPool .notifyAll else none
  | .join =>
      if s.point = .joining ∧ ∀ worker ∈ s.pool.workers, worker = .exited then
        some { s with point := .returned }
      else none
  | .check who => s.inPool (.check who)
  | .spurious who => s.inPool (.spurious who)
  | .recv who plat server data =>
      match s.pool.workers[who]?, s.tasks who with
      | some (.running client), none =>
          let request : Request := ⟨client, plat, server, data⟩
          if fitsBuffer data = true ∧ request.overruns = false then
            some ((s.operate client .recv).setTask who (some ⟨request, request.outcome.events⟩))
          else none
      | _, _ => none
  | .perform who =>
      match s.tasks who with
      | some ⟨request, e :: rest⟩ =>
          some ((s.perform request.client e).setTask who (some ⟨request, rest⟩))
      | _ => none
  | .finish who =>
      match s.tasks who with
      | some ⟨request, []⟩ =>
          { s.setTask who none with served := s.served ++ [request] }.inPool
            (.finish who request.throws)
      | _ => none

/-- What each label does, guards included: the facts that the proofs take from a step. -/
inductive Step (s : Process) : Label → Process → Prop where
  | signal : Step s .signal { s with shutdownRequested := true }
  | test (hpoint : s.point = .testing) :
      Step s .test { s with point := if s.shutdownRequested then .leaving else .polling }
  | poll {ready : Bool} (hpoint : s.point = .polling) :
      Step s (.poll ready) { s with point := if ready then .accepting else .testing }
  | acceptNothing (hpoint : s.point = .accepting) :
      Step s (.accept none) { s with point := .testing }
  | accept {socket : Nat} (hpoint : s.point = .accepting) (hfree : s.table socket = none) :
      Step s (.accept (some socket)) (s.accept socket)
  | push {client : Client} {pool : Pool Client} (hpoint : s.point = .submitting client)
      (hpool : ThreadPool.next s.pool (.push client) = some pool) :
      Step s .push { s with point := .notifying, pool := pool }
  | notify {target : Option Nat} {pool : Pool Client} (hpoint : s.point = .notifying)
      (hpool : ThreadPool.next s.pool (.notify target) = some pool) :
      Step s (.notify target) { s with point := .testing, pool := pool }
  | closeListener (hpoint : s.point = .leaving) :
      Step s .closeListener { s with point := .destroying }
  | destroy {pool : Pool Client} (hpoint : s.point = .destroying)
      (hpool : ThreadPool.next s.pool .destroy = some pool) :
      Step s .destroy { s with point := .waking, pool := pool }
  | notifyAll {pool : Pool Client} (hpoint : s.point = .waking)
      (hpool : ThreadPool.next s.pool .notifyAll = some pool) :
      Step s .notifyAll { s with point := .joining, pool := pool }
  | join (hpoint : s.point = .joining) (hall : ∀ worker ∈ s.pool.workers, worker = .exited) :
      Step s .join { s with point := .returned }
  | check {who : Nat} {pool : Pool Client}
      (hpool : ThreadPool.next s.pool (.check who) = some pool) :
      Step s (.check who) { s with pool := pool }
  | spurious {who : Nat} {pool : Pool Client}
      (hpool : ThreadPool.next s.pool (.spurious who) = some pool) :
      Step s (.spurious who) { s with pool := pool }
  | recv {who : Nat} {request : Request}
      (hworker : s.pool.workers[who]? = some (.running request.client))
      (hidle : s.tasks who = none) (hfits : fitsBuffer request.data = true)
      (hsurvives : request.overruns = false) :
      Step s (.recv who request.plat request.server request.data)
        ((s.operate request.client .recv).setTask who (some ⟨request, request.outcome.events⟩))
  | perform {who : Nat} {request : Request} {e : Event} {rest : List Event}
      (htask : s.tasks who = some ⟨request, e :: rest⟩) :
      Step s (.perform who) ((s.perform request.client e).setTask who (some ⟨request, rest⟩))
  | finish {who : Nat} {request : Request} {pool : Pool Client}
      (htask : s.tasks who = some ⟨request, []⟩)
      (hpool : ThreadPool.next s.pool (.finish who request.throws) = some pool) :
      Step s (.finish who)
        { s.setTask who none with pool := pool, served := s.served ++ [request] }

/-- An enabled transition is one of the steps. -/
theorem step_of_next {s s' : Process} {l : Label} (h : next s l = some s') : Step s l s' := by
  cases l with
  | signal =>
      cases h
      exact .signal
  | test =>
      obtain ⟨hpoint, ⟨⟩⟩ := Option.ite_none_right_eq_some.mp h
      exact .test hpoint
  | poll ready =>
      obtain ⟨hpoint, ⟨⟩⟩ := Option.ite_none_right_eq_some.mp h
      exact .poll hpoint
  | accept socket =>
      cases socket with
      | none =>
          obtain ⟨hpoint, ⟨⟩⟩ := Option.ite_none_right_eq_some.mp h
          exact .acceptNothing hpoint
      | some socket =>
          obtain ⟨hguard, ⟨⟩⟩ := Option.ite_none_right_eq_some.mp h
          exact .accept hguard.1 hguard.2
  | push =>
      simp only [next] at h
      split at h
      · obtain ⟨pool, hpool, rfl⟩ := Option.map_eq_some_iff.mp h
        exact .push ‹_› hpool
      · cases h
  | notify target =>
      obtain ⟨hpoint, h⟩ := Option.ite_none_right_eq_some.mp h
      obtain ⟨pool, hpool, rfl⟩ := Option.map_eq_some_iff.mp h
      exact .notify hpoint hpool
  | closeListener =>
      obtain ⟨hpoint, ⟨⟩⟩ := Option.ite_none_right_eq_some.mp h
      exact .closeListener hpoint
  | destroy =>
      obtain ⟨hpoint, h⟩ := Option.ite_none_right_eq_some.mp h
      obtain ⟨pool, hpool, rfl⟩ := Option.map_eq_some_iff.mp h
      exact .destroy hpoint hpool
  | notifyAll =>
      obtain ⟨hpoint, h⟩ := Option.ite_none_right_eq_some.mp h
      obtain ⟨pool, hpool, rfl⟩ := Option.map_eq_some_iff.mp h
      exact .notifyAll hpoint hpool
  | join =>
      obtain ⟨hguard, ⟨⟩⟩ := Option.ite_none_right_eq_some.mp h
      exact .join hguard.1 hguard.2
  | check who =>
      obtain ⟨pool, hpool, rfl⟩ := Option.map_eq_some_iff.mp h
      exact .check hpool
  | spurious who =>
      obtain ⟨pool, hpool, rfl⟩ := Option.map_eq_some_iff.mp h
      exact .spurious hpool
  | recv who plat server data =>
      simp only [next] at h
      split at h
      · next client hworker hidle =>
        obtain ⟨hguard, ⟨⟩⟩ := Option.ite_none_right_eq_some.mp h
        have hclient : s.pool.workers[who]? =
            some (.running (Request.mk client plat server data).client) := hworker
        exact .recv hclient hidle hguard.1 hguard.2
      · cases h
  | perform who =>
      simp only [next] at h
      split at h
      · cases h
        exact .perform ‹_›
      · cases h
  | finish who =>
      simp only [next] at h
      split at h
      · obtain ⟨pool, hpool, rfl⟩ := Option.map_eq_some_iff.mp h
        exact .finish ‹_› hpool
      · cases h

end Dvws.Main
