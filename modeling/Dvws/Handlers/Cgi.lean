import Dvws.Handlers.Logs

/-!
# Dispatch of rules

`cgi_dispatch` of `handlers/cgi.cpp`, with `CgiRoute::execute`. The tag decides which objects are
cast to `CgiRoute`; it is read with `operator[]`, which inserts a tag where there is none.
-/

namespace Dvws

open Effect

/-- `CgiRoute::execute`: the shell gets the string up to its first NUL. -/
def execute (plat : Platform) (executable : Bytes) : Handler Unit := do
  let command := cstr executable
  emit (.popen command)
  match plat.popen command with
  | none =>
      sendStatus plat (lit "500 Internal Server Error") plainType .server
        (lit "Failed to execute rule.\n") [] false
  | some output =>
      if readPipe output = [] then
        sendStatus plat (lit "200 OK") plainType .server (lit "Executed.\n") [] false
      else sendStatus plat (lit "200 OK") plainType (.command command) (readPipe output) [] false

/-- `route_types()[path]`: a missing tag is inserted as `STATIC`. -/
def subscriptRouteType (path : Bytes) : Handler RouteType := do
  let server ← get
  match server.routeTypes.lookup path with
  | some type => pure type
  | none => do
      modify fun s => { s with routeTypes := s.routeTypes.insert path .static }
      pure .static

/-- The loop of `cgi_dispatch`, up to the object that it casts to `CgiRoute`. -/
def castRule (req : HttpRequest) : List Route → Handler (Option Route)
  | [] => pure none
  | rule :: rules =>
      if rule.path = req.cleanPath then do
        let type ← subscriptRouteType rule.path
        if type = .cgi then pure (some rule) else castRule req rules
      else castRule req rules

/-- `cgi_dispatch`. -/
def cgiDispatch (plat : Platform) (req : HttpRequest) : Handler Bool := do
  if (lit "/cgi-bin/").isPrefixOf req.cleanPath then do
    let server ← get
    match ← castRule req server.cgiRules with
    | some rule => do
        execute plat rule.executable
        pure true
    | none => pure false
  else pure false

section Frames

variable {κ : Type} {keep : Server → κ} {plat : Platform} {emits : Event → Prop}

/-- Executing a rule is plain. -/
theorem execute_behaves (executable : Bytes) :
    Behaves PlainEvent keep (execute plat executable) := by
  refine .bind (.emit trivial) fun _ => ?_
  split
  · exact send_status_behaves server_is_plain ..
  · exact .ite (send_status_behaves server_is_plain ..)
      (send_status_behaves (command_is_plain _) ..)

/-- Reading a tag emits nothing and touches the tags only. -/
theorem subscript_route_type_behaves
    (hkeep : ∀ s types, keep { s with routeTypes := types } = keep s) (path : Bytes) :
    Behaves emits keep (subscriptRouteType path) := by
  refine .bind .get fun server => ?_
  cases server.routeTypes.lookup path with
  | some type => exact .pure type
  | none => exact .bind (.modify fun s => hkeep s _) fun _ => .pure RouteType.static

/-- The search of a rule is plain. -/
theorem cast_rule_behaves (hkeep : ∀ s types, keep { s with routeTypes := types } = keep s)
    (req : HttpRequest) (rules : List Route) : Behaves emits keep (castRule req rules) := by
  induction rules with
  | nil => exact .pure none
  | cons rule rules ih =>
      refine .ite (.bind (subscript_route_type_behaves hkeep _) fun type => ?_) ih
      exact .ite (.pure (some rule)) ih

/-- `cgi_dispatch` is plain and touches the tags only. -/
theorem cgi_dispatch_behaves (hkeep : ∀ s types, keep { s with routeTypes := types } = keep s)
    (req : HttpRequest) : Behaves PlainEvent keep (cgiDispatch plat req) := by
  refine .ite (.bind .get fun _ => .bind (cast_rule_behaves hkeep req _) fun found => ?_) ?_
  · cases found with
    | some rule => exact .bind (execute_behaves _) fun _ => .pure true
    | none => exact .pure false
  · exact .pure false

end Frames

end Dvws
