import Dvws.Handlers.Effects
import Dvws.Rules.Run

/-!
# What the server executes

A command reaches the shell in three ways: the log viewer builds one from a query, the helper route
executes its staged copy, and a rule executes its string. `commands_of_run` says what a request
executes after any run: what the run comes to in it is the history of the registry, which only
authorised requests make.
-/

namespace Dvws

open Effect Tagging

/-- The command of the log viewer for a query, unless it rejects the level. -/
def viewerCommands (plat : Platform) (params : Params) : List Bytes :=
  if params.subscript (lit "level") ∈ validLevels then
    [cstr (logCommand plat (params.subscript (lit "level")) (params.subscript (lit "search")))]
  else []

/-- The bundled helper, when there is one and it can be staged. -/
def helperCommands (plat : Platform) : List Bytes :=
  if (helperFile plat).isSome = true ∧ plat.canCreate (stagingPath plat) = true then
    [stagingPath plat]
  else []

/-- The string of the first rule that was added for a path, when the path was last tagged `CGI`. -/
def ruleCommands (history : List RuleChange) (path : Bytes) : List Bytes :=
  if lastType history path = some .cgi then
    ((firstRule history path).map fun rule => cstr rule.executable).toList
  else []

/-- What a request executes after a history of the registry. -/
def requestCommands (history : List RuleChange) (r : Request) : List Bytes :=
  match HttpRequest.parse r.raw with
  | .ok (true, req) =>
      if req.cleanPath = lit "/logs" then viewerCommands r.plat (queryParams req)
      else if req.cleanPath = lit "/cgi-helper" then helperCommands r.plat
      else if lit "/cgi-bin/" <+: req.cleanPath then ruleCommands history req.cleanPath
      else []
  | _ => []

/-! ## What runs nothing -/

/-- The computation returns and runs no command. -/
abbrev RunsNothing {α : Type} (x : Handler α) : Prop :=
  Behaves (fun e => commandOf e = none) (fun _ => ()) x

section Nothing

variable {α : Type} {plat : Platform}

/-- A computation that runs nothing has no command among its events. -/
theorem RunsNothing.commands_eq {x : Handler α} (hx : RunsNothing x) (s : Server) :
    commands (x s).events = [] :=
  List.filterMap_eq_nil_iff.mpr (hx.events s)

/-- Closing the socket runs nothing. -/
theorem close_runs_nothing : RunsNothing closeSocket := .emit rfl

/-- What comes before the `close` runs all commands. -/
theorem commands_before_close {κ : Type} {emits : Event → Prop} {keep : Server → κ}
    {x : Handler Unit} (hx : Behaves emits keep x) (s : Server) :
    commands ((x >>= fun _ => closeSocket) s).events = commands (x s).events := by
  obtain ⟨_, middle, first, hrun, -, -⟩ := hx.exists_run s
  rw [bind_run_of_ok hrun, hrun]
  show commands (first ++ [.close]) = commands first
  rw [commands, List.filterMap_append]
  exact List.append_nil _

/-- A handler that runs nothing, with the `close` behind it, has no command among its events. -/
theorem RunsNothing.commands_closed {x : Handler Unit} (hx : RunsNothing x) (s : Server) :
    commands ((x >>= fun _ => closeSocket) s).events = [] :=
  (commands_before_close hx s).trans (hx.commands_eq s)

/-- Sending is no command. -/
theorem send_runs_nothing (origin : Origin) (data : Bytes) :
    commandOf (.send origin data) = none := rfl

/-- Writing to the access log is no command. -/
theorem log_runs_nothing (e : Event) (h : LogCall e) : commandOf e = none := by
  obtain h | ⟨pieces, rfl⟩ | ⟨sink, timestamp, message, rfl⟩ := h
  · cases e with
    | popen command => exact absurd h id
    | _ => rfl
  · rfl
  · rfl

/-- The answer to a rejected request runs nothing. -/
theorem reject_request_runs_nothing (req : HttpRequest) : RunsNothing (rejectRequest plat req) :=
  .ite (send_status_sends send_runs_nothing ..) (send_status_sends send_runs_nothing ..)

/-- The admin routes run nothing, unless `whoami` gets a truncated `Authorization` value. -/
theorem admin_routes_runs_nothing {req : HttpRequest}
    {handler : Platform → HttpRequest → Handler Unit}
    (h : adminRoutes.lookup req.cleanPath = some handler)
    (hauth : req.cleanPath = whoamiPath → ¬ HasTruncatedAuth req) :
    RunsNothing (handler plat req) := by
  have hmem := mem_of_lookup h
  simp only [adminRoutes, List.mem_cons, Prod.mk.injEq, List.not_mem_nil, or_false] at hmem
  obtain ⟨-, rfl⟩ | ⟨-, rfl⟩ | ⟨-, rfl⟩ | ⟨-, rfl⟩ | ⟨-, rfl⟩ | ⟨-, rfl⟩ | ⟨hpath, rfl⟩ := hmem
  · exact system_status_emits send_runs_nothing (fun _ _ => rfl) req
  · exact upload_file_receives send_runs_nothing (fun _ _ => rfl) req
  · exact add_rule_emits send_runs_nothing (fun _ _ _ => rfl) req
  · exact update_rule_emits send_runs_nothing (fun _ _ => rfl) req
  · exact logging_emits send_runs_nothing (fun _ _ _ => rfl) (fun _ => rfl) (fun _ => rfl) req
  · exact deploy_site_emits send_runs_nothing (fun _ => rfl) (fun _ _ => rfl) req
  · obtain ⟨auth, hvalue⟩ := extract_header_value_returns req.text (lit "Authorization" ++ lit ":")
    exact whoami_emits send_runs_nothing hvalue fun htrunc => hauth hpath ⟨auth, hvalue, htrunc⟩

/-- The static files are served without a command. -/
theorem serve_files_runs_nothing (req : HttpRequest) (sessionId : Bytes) :
    RunsNothing (serveFiles plat req sessionId) := by
  have hstatic (cookie : Bytes) : RunsNothing (serveStatic plat req cookie) :=
    serve_static_emits send_runs_nothing log_runs_nothing req cookie
  have hmint : RunsNothing (mintSession plat) :=
    .bind (.emit rfl) fun _ => .bind (.modify fun _ => rfl) fun _ => .pure _
  refine .ite (.bind hmint fun cookie => ?_) (.bind (hstatic []) fun _ => close_runs_nothing)
  exact .bind (hstatic cookie) fun _ => close_runs_nothing

end Nothing

/-! ## The three ways -/

section Ways

variable {plat : Platform} {s : Server}

/-- The log viewer runs its command for a valid level. -/
theorem handle_log_viewer_commands (req : HttpRequest) (s : Server) :
    commands (handleLogViewer plat req.text s).events = viewerCommands plat (queryParams req) := by
  unfold handleLogViewer viewerCommands
  rw [extract_query_params, lift_ok_bind]
  dsimp only
  by_cases hlevel : (queryParams req).subscript (lit "level") ≠ [] ∧
      (queryParams req).subscript (lit "level") ∉ [lit "error", lit "warning", lit "info"]
  · have hinvalid : (queryParams req).subscript (lit "level") ∉ validLevels :=
      fun hvalid => (List.mem_cons.mp hvalid).elim hlevel.1 hlevel.2
    rw [if_pos hlevel, if_neg hinvalid]
    exact RunsNothing.commands_eq (send_status_sends send_runs_nothing ..) s
  · have hvalid : (queryParams req).subscript (lit "level") ∈ validLevels := by
      rw [not_and_or, not_not, not_not] at hlevel
      exact List.mem_cons.mpr hlevel
    rw [if_neg hlevel, if_pos hvalid]
    show commands (.popen _ :: _) = _
    refine congrArg (List.cons _) ?_
    have hanswer (code type body : Bytes) (origin : Origin) (headOnly : Bool) :
        RunsNothing (sendStatus plat code type origin body [] headOnly) :=
      send_status_sends send_runs_nothing ..
    cases plat.popen (cstr (logCommand plat ((queryParams req).subscript (lit "level"))
        ((queryParams req).subscript (lit "search")))) with
    | none => exact (hanswer ..).commands_eq s
    | some output => exact RunsNothing.commands_eq (.ite (hanswer ..) (hanswer ..)) s

/-- The helper route runs the staged helper. -/
theorem handle_cgi_helper_commands (request : Bytes) (sendBody : Bool) (s : Server) :
    commands (handleCgiHelper plat request sendBody s).events = helperCommands plat := by
  have hlogs (response : Bytes) : RunsNothing (logRequestResponse plat request response) :=
    log_request_response_emits log_runs_nothing ..
  unfold handleCgiHelper helperCommands
  cases hhelper : helperFile plat with
  | none =>
      rw [if_neg fun h => absurd h.1 (by simp)]
      refine RunsNothing.commands_eq (.bind (send_status_sends send_runs_nothing ..) fun _ => ?_) s
      exact hlogs _
  | some helper =>
      dsimp only
      by_cases hcreate : plat.canCreate (stagingPath plat) = true
      · rw [if_pos hcreate, if_pos ⟨rfl, hcreate⟩]
        show commands (.writeFile _ _ :: .changeMode _ :: .popen _ :: _) = _
        refine congrArg (List.cons _) ?_
        cases plat.popen (stagingPath plat) with
        | none => rfl
        | some output =>
            refine RunsNothing.commands_eq (.bind (hlogs _) fun _ => ?_) s
            refine .bind (send_behaves (send_runs_nothing ..)) fun _ => ?_
            refine .bind (.ite ?_ (.pure ())) fun _ => .emit rfl
            exact send_pieces_behaves (send_runs_nothing _) _
      · rw [if_neg hcreate, if_neg fun h => hcreate h.2]
        rfl

/-- Below `/cgi-bin/` a rule runs its string, and elsewhere nothing is run. -/
theorem cgi_dispatch_commands {history : List RuleChange} (htagged : Tagged s)
    (h : Records s history) (req : HttpRequest) :
    commands (cgiDispatch plat req s).events =
      if lit "/cgi-bin/" <+: req.cleanPath then ruleCommands history req.cleanPath else [] := by
  by_cases hpath : lit "/cgi-bin/" <+: req.cleanPath
  · rw [if_pos hpath, htagged.cgi_dispatch_run plat hpath, ruleCommands, ← h.types]
    by_cases hcgi : s.routeTypes.lookup req.cleanPath = some .cgi
    · obtain ⟨rule, hfirst, hserving⟩ := serving_rule_of_records htagged h hcgi
      obtain ⟨events, hrun⟩ := execute_run plat rule.executable s
      have hcommands := execute_commands plat rule.executable s
      rw [if_pos hcgi, hfirst, hserving]
      dsimp only
      rw [bind_run_of_ok hrun, pure_run, List.append_nil]
      rw [hrun] at hcommands
      exact hcommands
    · rw [if_neg hcgi, servingRule, if_neg hcgi]
      rfl
  · unfold cgiDispatch
    rw [if_neg hpath, if_neg fun hbegins => hpath (List.isPrefixOf_iff_prefix.mp hbegins)]
    rfl

/-- For a visitor the rules run what the history says. -/
theorem serve_visitor_commands {history : List RuleChange} (htagged : Tagged s)
    (h : Records s history) (req : HttpRequest) (sessionId : Bytes) :
    commands (serveVisitor plat req sessionId s).events =
      if lit "/cgi-bin/" <+: req.cleanPath then ruleCommands history req.cleanPath else [] := by
  have hrules : Behaves PlainEvent (fun _ => ()) (cgiDispatch plat req) :=
    cgi_dispatch_behaves (fun _ _ => rfl) req
  obtain ⟨handled, middle, first, hrun, -, -⟩ := hrules.exists_run s
  have hcommands : commands (cgiDispatch plat req s).events = _ :=
    cgi_dispatch_commands htagged h req
  rw [hrun] at hcommands
  have hrest : RunsNothing (if handled then closeSocket else serveFiles plat req sessionId) :=
    .ite close_runs_nothing (serve_files_runs_nothing req sessionId)
  unfold serveVisitor
  rw [bind_run_of_ok hrun, ← hcommands]
  show commands (first ++ _) = commands first
  rw [commands, List.filterMap_append]
  exact (congrArg _ (hrest.commands_eq middle)).trans (List.append_nil _)

end Ways

/-! ## Whole runs -/

section Paths

variable {r : Request} {req : HttpRequest}

/-- No rule is looked for under a guarded path. -/
theorem not_rule_path_of_guarded {path : Bytes} (hguard : isGuarded path = true) :
    ¬ lit "/cgi-bin/" <+: path := by
  intro hcgi
  by_cases hwhoami : path = whoamiPath
  · rw [hwhoami] at hcgi
    exact absurd hcgi (by decide)
  · obtain hinit | hinit := List.prefix_or_prefix_of_prefix (admin_of_guarded hguard hwhoami) hcgi
    · exact absurd hinit (by decide)
    · exact absurd hinit (by decide)

/-- No guarded path runs a command. -/
theorem request_commands_of_guarded (hparse : HttpRequest.parse r.raw = .ok (true, req))
    (hguard : isGuarded req.cleanPath = true) (history : List RuleChange) :
    requestCommands history r = [] := by
  have hlogs : req.cleanPath ≠ lit "/logs" := by
    intro heq
    rw [heq] at hguard
    exact absurd hguard (by decide)
  have hhelper : req.cleanPath ≠ lit "/cgi-helper" := by
    intro heq
    rw [heq] at hguard
    exact absurd hguard (by decide)
  unfold requestCommands
  rw [hparse]
  dsimp only
  rw [if_neg hlogs, if_neg hhelper, if_neg (not_rule_path_of_guarded hguard)]

/-- Of the open routes, two run commands. -/
theorem open_route_commands (hparse : HttpRequest.parse r.raw = .ok (true, req))
    {handler : Platform → HttpRequest → Handler Unit}
    (hroute : openRoutes.lookup req.cleanPath = some handler) (history : List RuleChange)
    (s : Server) : commands (handler r.plat req s).events = requestCommands history r := by
  have hmem := mem_of_lookup hroute
  simp only [openRoutes, List.mem_cons, Prod.mk.injEq, List.not_mem_nil, or_false] at hmem
  unfold requestCommands
  rw [hparse]
  dsimp only
  obtain ⟨hpath, rfl⟩ | ⟨hpath, rfl⟩ | ⟨hpath, rfl⟩ | ⟨hpath, rfl⟩ := hmem
  · rw [hpath, if_neg (by decide), if_neg (by decide), if_neg (by decide)]
    exact RunsNothing.commands_eq (status_emits send_runs_nothing req) s
  · rw [if_pos hpath]
    exact handle_log_viewer_commands req s
  · rw [hpath, if_neg (by decide), if_neg (by decide), if_neg (by decide)]
    exact RunsNothing.commands_eq (echo_request_emits send_runs_nothing req) s
  · rw [hpath, if_neg (by decide), if_pos rfl]
    exact handle_cgi_helper_commands ..

/-- A visitor's request for neither of them is left to the rules. -/
theorem request_commands_of_visitor {sessionId : Bytes} (hreach : Reaches r.raw req sessionId)
    (history : List RuleChange) : requestCommands history r =
      if lit "/cgi-bin/" <+: req.cleanPath then ruleCommands history req.cleanPath else [] := by
  have hlogs : req.cleanPath ≠ lit "/logs" := by
    intro heq
    have hopen := hreach.notOpen
    rw [heq] at hopen
    cases hopen
  have hhelper : req.cleanPath ≠ lit "/cgi-helper" := by
    intro heq
    have hopen := hreach.notOpen
    rw [heq] at hopen
    cases hopen
  unfold requestCommands
  rw [hreach.parsed]
  dsimp only
  rw [if_neg hlogs, if_neg hhelper]

end Paths

/-- What a request executes where the rules are those of a history. -/
theorem commands_of_records {s : Server} {history : List RuleChange} (htagged : Tagged s)
    (hrecords : Records s history) (r : Request) :
    commands (dispatch r.plat r.raw s).events = requestCommands history r := by
  have hrouted := dispatch_routed r.plat r.raw s
  generalize hout : dispatch r.plat r.raw s = out at hrouted
  cases hrouted with
  | overrun hoverruns =>
      unfold requestCommands
      rw [parse_overruns hoverruns]
      rfl
  | rejected hparse =>
      have hnone : requestCommands history r = [] := by
        unfold requestCommands
        rw [hparse]
      rw [hnone]
      exact (reject_request_runs_nothing _).commands_closed _
  | @openRoute req handler hparse hroute =>
      have hopen : Behaves PlainEvent (fun _ => ()) (handler r.plat req) :=
        open_routes_behave hroute req
      rw [commands_before_close hopen]
      exact open_route_commands hparse hroute ..
  | thrown hreach hguard hadmitted htrunc =>
      exact (request_commands_of_guarded hreach.parsed hguard _).symm
  | refused hreach hguard hadmitted htrunc hpasses hplain =>
      have hrun := refused_run hreach hguard hadmitted htrunc hpasses
      rw [hout] at hrun
      rw [request_commands_of_guarded hreach.parsed hguard, hrun]
      have hprompt : RunsNothing (sendBasicAuthPrompt r.plat) :=
        send_ignored_behaves (send_runs_nothing ..)
      rw [commands, List.filterMap_append]
      exact (List.append_nil _).trans (hprompt.commands_eq _)
  | adminRoute hreach hguard hauth hroute =>
      rw [request_commands_of_guarded hreach.parsed hguard]
      exact (admin_routes_runs_nothing hroute hauth.not_truncated).commands_closed _
  | console hreach hguard hauth hroute =>
      -- the console of the admin area is served like a file, and no rule is looked up for it
      have hsame := hauth.configuration_eq
      have htagged := tagged_of_configuration_eq hsame htagged
      simp only [configuration, Prod.mk.injEq] at hsame
      have hrecords := hrecords.congr (Prod.ext hsame.1 hsame.2.1)
      rw [request_commands_of_guarded hreach.parsed hguard,
        serve_visitor_commands htagged hrecords, if_neg (not_rule_path_of_guarded hguard)]
  | visitor hreach hguard =>
      rw [request_commands_of_visitor hreach]
      have htagged : Tagged (counted s) := htagged
      exact serve_visitor_commands htagged (hrecords.congr rfl) ..

/-- What a request executes after any run: the command of the log viewer, the bundled helper, or
the rule that the authorised requests of the run have made for its path. -/
theorem commands_of_run (rs : List Request) (r : Request) :
    commands (dispatch r.plat r.raw (serveAll rs)).events = requestCommands (runHistory rs) r :=
  commands_of_records (tagged_serve_all rs) (records_of_run rs) r

end Dvws
