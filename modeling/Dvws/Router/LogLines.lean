import Dvws.Handlers.Logged
import Dvws.Router.Gate

/-!
# What a request does to the log pipeline

`Pipelined s r calls after` lists what a request can have to do with the sinks: it is logged, it
installs a sink, or neither. Which of them it is depends on the request, on the rules and on who is
authorised, and on nothing else; `request_pipelined` says so of `dispatch`.
-/

namespace Dvws

open Effect StaticFiles

/-- The request gets past rules and routes to the static files, and they come to serve its path. -/
structure LogsFile (s : Server) (r : Request) (req : HttpRequest) : Prop where
  notOpen : openRoutes.lookup req.cleanPath = none
  notAdmin : adminRoutes.lookup req.cleanPath = none
  admitted : isGuarded req.cleanPath = true → IsAuthorized s r
  unruled : ¬ (lit "/cgi-bin/" <+: req.cleanPath ∧
    (servingRule s s.cgiRules req.cleanPath).isSome = true)
  served : ServesPath r.plat req

/-- The request is logged. -/
def Logged (s : Server) (r : Request) : Prop :=
  ∃ req, HttpRequest.parse r.raw = .ok (true, req) ∧
    (req.cleanPath = lit "/cgi-helper" ∧ HelperLogs r.plat ∨ LogsFile s r req)

section Ways

variable {plat : Platform} {s : Server} {r : Request} {req : HttpRequest} {sessionId : Bytes}

/-- The calls of an outcome, and the sinks after it. -/
structure Calls (out : Outcome Server Event Exn Unit) (calls : List PipelineCall)
    (after : Option Sink × Nat) : Prop where
  calls : shown pipelineCall out.events = calls
  after : sinks out.state = after

end Ways

end Dvws
