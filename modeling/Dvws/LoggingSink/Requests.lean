import Dvws.LoggingSink.Delivery
import Dvws.Router.Closing
import Dvws.Router.LogLines
import Dvws.Rules.History
import Dvws.Transition.Past

/-!
# From requests to the sinks

The server and the log pipeline together: requests are served one after another, and the worker
makes its steps between them. What a request does to the pipeline is what its events call; no call
can fail, and every request that is logged while a sink is installed reaches that sink, once and in
order, or is still on its way.
-/

namespace Dvws.LoggingSink

open Effect HttpRequest Transition

/-- The server and the pipeline. -/
structure System where
  server : Server
  pipeline : State

/-- The system when the process starts. -/
def System.init (clock : Int) : System := ⟨Server.init, State.init clock⟩

/-- A step: a request is served while the clock stands at `time`, or the worker makes its next. -/
inductive SystemLabel where
  | request (r : Request) (time : Int)
  | worker (l : Label)

/-- The steps of the pipeline in a call. -/
def callLabels (time : Int) : PipelineCall → List Label
  | .enqueue _ timestamp message => [.test, .enqueue ⟨timestamp, message⟩ time]
  | .install _ => [.install]

/-- The steps of the pipeline in a request. -/
def requestLabels (s : Server) (r : Request) (time : Int) : List Label :=
  (shown pipelineCall (dispatch r.plat r.raw s).events).flatMap (callLabels time)

/-- The step is one of the worker. -/
def Label.ofWorker : Label → Bool
  | .sample _ | .extract | .write _ | .rest => true
  | _ => false

/-- The process goes on behind the request: it does not run over the buffer of the target. -/
def survives (s : Server) (r : Request) : Bool :=
  match (dispatch r.plat r.raw s).value with
  | .error .overrun => false
  | _ => true

/-- One step of the system. There is none for a request that ends the process. -/
def System.next (s : System) : SystemLabel → Option System
  | .request r time =>
      if survives s.server r ∧ s.pipeline.clock ≤ time then
        (run LoggingSink.next (requestLabels s.server r time) s.pipeline).map
          fun pipeline => ⟨serve s.server r, pipeline⟩
      else none
  | .worker l =>
      if l.ofWorker then (LoggingSink.next s.pipeline l).map fun pipeline => ⟨s.server, pipeline⟩
      else none

/-- The record of a request. -/
def recordOf (r : Request) : LogRecord := ⟨logTimestamp r.plat, sinkMessage (requestOf r.raw).text⟩

open Classical in
/-- The entry of a request that is logged while a sink is installed. -/
noncomputable def entryOf (s : Server) (r : Request) (time : Int) : Option QueueEntry :=
  if Logged s r then s.sink.map fun sink => ⟨recordOf r, some sink.id, time⟩ else none

/-- The entries of requests that are served one after another. -/
noncomputable def entriesOf (rs : List (Request × Int)) : List QueueEntry :=
  (withPast rs).filterMap fun (past, r, time) => entryOf (serveAll (past.map Prod.fst)) r time

/-- The pipeline is where the server's requests have brought it. -/
structure Agree (s : System) (ls : List Label) : Prop where
  sink : s.server.sink.map Sink.id = installedSink (installations ls)
  made : s.server.sinksMade = installations ls

/-- A record that is enqueued changes nothing that the two parts agree on. -/
theorem Agree.enqueue {s : System} {ls : List Label} (h : Agree s ls) (record : LogRecord)
    (time : Int) : Agree s (ls ++ [.test, .enqueue record time]) := by
  have hcount : installations (ls ++ [.test, .enqueue record time]) = installations ls := by
    simp [installations]
  exact ⟨hcount ▸ h.sink, hcount ▸ h.made⟩

end Dvws.LoggingSink
