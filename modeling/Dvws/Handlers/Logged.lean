import Dvws.Effect.Shown
import Dvws.Handlers.Effects
import Dvws.Handlers.Revealed
import Dvws.Rules.Registry

/-!
# What the handlers do to the log pipeline

Two events reach the pipeline of the log sinks: a record that is queued, and a sink that is
installed. A request is logged by the static files, when they come to serve a file or a listing, and
by the helper route, unless the helper cannot be staged or executed; each logs it once.
-/

namespace Dvws

open Effect StaticFiles

/-- A call to `logging_sink.cpp`. -/
inductive PipelineCall where
  | enqueue (sink : Sink) (timestamp message : Bytes)
  | install (sink : Sink)
  deriving DecidableEq, Repr

/-- The call that an event is. -/
def pipelineCall : Event → Option PipelineCall
  | .enqueueLog sink timestamp message => some (.enqueue sink timestamp message)
  | .installSink sink => some (.install sink)
  | _ => none

/-- The time stamp of a log record. -/
def logTimestamp (plat : Platform) : Bytes :=
  isoDate (localNow plat) ++ lit " " ++ clockTime (localNow plat)

/-- The sink, and the number of sinks so far. -/
def sinks (s : Server) : Option Sink × Nat := (s.sink, s.sinksMade)

variable {plat : Platform}

/-- The helper route comes to log: there is no helper, or it is staged and executed. -/
def HelperLogs (plat : Platform) : Prop :=
  helperFile plat = none ∨
    plat.canCreate (stagingPath plat) = true ∧ (plat.popen (stagingPath plat)).isSome = true

instance (plat : Platform) : Decidable (HelperLogs plat) := inferInstanceAs (Decidable (_ ∨ _))

end Dvws
