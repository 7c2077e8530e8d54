import Dvws.Router.Commands

/-!
# What a request may do

The server has effects beyond its answers: it makes directories, writes and removes files, runs
commands, receives and decodes data, replaces the log sink, mints sessions. `Permitted` names for
each of them the requests that may cause it, and `every_event_is_permitted` says that no request
causes another, in any reachable state.
-/

namespace Dvws

open Effect

/-- The request is accepted and asks for this path. -/
def AsksFor (r : Request) (path : Bytes) : Prop :=
  ∃ req, HttpRequest.parse r.raw = .ok (true, req) ∧ req.cleanPath = path

/-- The request is accepted and asks for this path, and it is authorised after the run. -/
def Administers (rs : List Request) (r : Request) (path : Bytes) : Prop :=
  AsksFor r path ∧ AuthorizedAfter rs r

/-- The file is the one that the helper route stages for the request. -/
def Stages (r : Request) (path : Bytes) : Prop :=
  AsksFor r (lit "/cgi-helper") ∧ path = stagingPath r.plat

/-- The request may cause the event after the run. -/
def Permitted (rs : List Request) (r : Request) : Event → Prop
  | .send .. => True
  | .close => True
  | .appendLog _ => True
  | .enqueueLog .. => True
  | .renameFile source target => RotationCall (.renameFile source target)
  | .removeFile path => RotationCall (.removeFile path) ∨ Stages r path
  | .changeMode path => Stages r path
  | .writeFile path _ => Stages r path ∨ Administers rs r (lit "/admin/deploy_site")
  | .makeDir _ => Administers rs r (lit "/admin/deploy_site")
  | .receive .. => Administers rs r (lit "/admin/upload_file")
  | .decodeStatus .. => Administers rs r (lit "/admin/system_status")
  | .installSink _ => Administers rs r (lit "/admin/logging")
  | .deleteSink _ => Administers rs r (lit "/admin/logging")
  | .popen command => command ∈ requestCommands (runHistory rs) r
  | .mintSession sessionId => sessionId = generateSessionId r.plat ∧
      ∃ req, HttpRequest.parse r.raw = .ok (true, req) ∧ getSessionIdFromCookie req.text = .ok []

/-- The event is permitted, unless it is a command, which is a matter of its own. -/
def PermittedBesides (rs : List Request) (r : Request) (e : Event) : Prop :=
  commandOf e = none → Permitted rs r e

section Handlers

variable {κ : Type} {keep : Server → κ} {rs : List Request} {r : Request} {req : HttpRequest}

/-- Every request may be answered. -/
theorem send_permitted (origin : Origin) (data : Bytes) :
    PermittedBesides rs r (.send origin data) := fun _ => trivial

/-- Every request may be logged. -/
theorem log_permitted (e : Event) (h : LogCall e) : PermittedBesides rs r e := by
  intro _
  obtain h | ⟨pieces, rfl⟩ | ⟨sink, timestamp, message, rfl⟩ := h
  · cases e with
    | removeFile path => exact .inl h
    | renameFile source target => exact h
    | _ => exact absurd h id
  · trivial
  · trivial

/-- A command is left to what is known of the commands. -/
theorem popen_permitted (command : Bytes) : PermittedBesides rs r (.popen command) :=
  fun h => absurd h (Option.some_ne_none _)

/-- The open routes stage the helper at most. -/
theorem open_route_permitted (hparse : HttpRequest.parse r.raw = .ok (true, req))
    {handler : Platform → HttpRequest → Handler Unit}
    (hroute : openRoutes.lookup req.cleanPath = some handler) :
    Behaves (PermittedBesides rs r) keep (handler r.plat req) := by
  have hmem := mem_of_lookup hroute
  simp only [openRoutes, List.mem_cons, Prod.mk.injEq, List.not_mem_nil, or_false] at hmem
  obtain ⟨-, rfl⟩ | ⟨-, rfl⟩ | ⟨-, rfl⟩ | ⟨hpath, rfl⟩ := hmem
  · exact status_emits send_permitted req
  · exact handle_log_viewer_emits send_permitted (extract_query_params req)
      fun _ => popen_permitted _
  · exact echo_request_emits send_permitted req
  · have hstages : Stages r (stagingPath r.plat) := ⟨⟨req, hparse, hpath⟩, rfl⟩
    exact handle_cgi_helper_emits send_permitted log_permitted (fun _ _ => .inl hstages)
      (fun _ => hstages) (fun _ _ => popen_permitted _) (fun _ => .inr hstages) ..

/-- The admin routes do what their paths permit. -/
theorem admin_route_permitted
    (hkeep : ∀ s rules types sink made, keep { s with
      cgiRules := rules, routeTypes := types, sink := sink, sinksMade := made } = keep s)
    (hparse : HttpRequest.parse r.raw = .ok (true, req)) (hauth : AuthorizedAfter rs r)
    {handler : Platform → HttpRequest → Handler Unit}
    (hroute : adminRoutes.lookup req.cleanPath = some handler)
    (htrunc : req.cleanPath = whoamiPath → ¬ HasTruncatedAuth req) :
    Behaves (PermittedBesides rs r) keep (handler r.plat req) := by
  have hpermits {path : Bytes} (hpath : req.cleanPath = path) : Administers rs r path :=
    ⟨⟨req, hparse, hpath⟩, hauth⟩
  have hmem := mem_of_lookup hroute
  simp only [adminRoutes, List.mem_cons, Prod.mk.injEq, List.not_mem_nil, or_false] at hmem
  obtain ⟨hpath, rfl⟩ | ⟨hpath, rfl⟩ | ⟨-, rfl⟩ | ⟨-, rfl⟩ | ⟨hpath, rfl⟩ | ⟨hpath, rfl⟩ |
    ⟨hpath, rfl⟩ := hmem
  · exact system_status_emits send_permitted (fun _ _ _ => hpermits hpath) req
  · exact upload_file_receives send_permitted (fun _ _ _ => hpermits hpath) req
  · exact add_rule_emits send_permitted (fun s _ _ => hkeep s _ _ s.sink s.sinksMade) req
  · exact update_rule_emits send_permitted (fun s _ => hkeep s s.cgiRules _ s.sink s.sinksMade) req
  · exact logging_emits send_permitted (fun s _ _ => hkeep s s.cgiRules s.routeTypes _ _)
      (fun _ _ => hpermits hpath) (fun _ _ => hpermits hpath) req
  · exact deploy_site_emits send_permitted (fun _ _ => hpermits hpath)
      (fun _ _ _ => .inr (hpermits hpath)) req
  · obtain ⟨auth, hvalue⟩ := extract_header_value_returns req.text (lit "Authorization" ++ lit ":")
    exact whoami_emits send_permitted hvalue fun h => htrunc hpath ⟨auth, hvalue, h⟩

/-- Rules and static files are for everybody; only a request without an ID gets a session. -/
theorem serve_visitor_permitted {sessionId : Bytes} (hreach : Reaches r.raw req sessionId) :
    Behaves (PermittedBesides rs r) (fun _ => ()) (serveVisitor r.plat req sessionId) := by
  have hstatic (cookie : Bytes) :
      Behaves (PermittedBesides rs r) (fun _ => ()) (serveStatic r.plat req cookie) :=
    serve_static_emits send_permitted log_permitted req cookie
  have hclose : Behaves (PermittedBesides rs r) (fun _ => ()) closeSocket := .emit fun _ => trivial
  have hrules : Behaves (PermittedBesides rs r) (fun _ => ()) (cgiDispatch r.plat req) := by
    refine .ite (.bind .get fun _ => ?_) (.pure false)
    refine .bind (cast_rule_behaves (fun _ _ => rfl) req _) fun found => ?_
    cases found with
    | some rule =>
        exact .bind (execute_emits send_permitted (popen_permitted _)) fun _ => .pure true
    | none => exact .pure false
  refine .bind hrules fun handled => .ite hclose ?_
  unfold serveFiles
  by_cases hid : sessionId = []
  · have hminted : PermittedBesides rs r (.mintSession (generateSessionId r.plat)) :=
      fun _ => ⟨rfl, req, hreach.parsed, hid ▸ hreach.cookie⟩
    rw [if_pos hid]
    refine .bind (.bind (.emit hminted) fun _ => .bind (.modify fun _ => rfl) fun _ => .pure _)
      fun cookie => .bind (hstatic cookie) fun _ => hclose
  · rw [if_neg hid]
    exact .bind (hstatic []) fun _ => hclose

/-- What is permitted before the `close` is permitted with it. -/
theorem permitted_before_close {x : Handler Unit}
    (hx : Behaves (PermittedBesides rs r) (fun _ => ()) x) (s : Server) :
    ∀ e ∈ ((x >>= fun _ => closeSocket) s).events, PermittedBesides rs r e := by
  have hclosed : Behaves (PermittedBesides rs r) (fun _ => ()) (x >>= fun _ => closeSocket) :=
    .bind hx fun _ => .emit fun _ => trivial
  exact hclosed.events s

end Handlers

/-- Every event but a command is permitted, on each of the ways. -/
theorem dispatch_permitted (rs : List Request) (r : Request) :
    ∀ e ∈ (dispatch r.plat r.raw (serveAll rs)).events, PermittedBesides rs r e := by
  have hrouted := dispatch_routed r.plat r.raw (serveAll rs)
  generalize hout : dispatch r.plat r.raw (serveAll rs) = out at hrouted
  cases hrouted with
  | overrun hoverruns => exact fun e he => nomatch he
  | rejected hparse =>
      refine permitted_before_close ?_ _
      exact .ite (send_status_sends send_permitted ..) (send_status_sends send_permitted ..)
  | openRoute hparse hroute => exact permitted_before_close (open_route_permitted hparse hroute) _
  | thrown hreach hguard hadmitted htrunc => exact fun e he => nomatch he
  | refused hreach hguard hadmitted htrunc hpasses hplain =>
      have hprompt : Behaves (PermittedBesides rs r) (fun _ => ()) (sendBasicAuthPrompt r.plat) :=
        send_ignored_behaves (send_permitted _ _)
      have hrun := refused_run hreach hguard hadmitted htrunc hpasses
      rw [hout] at hrun
      intro e he
      rw [hrun] at he
      obtain he | he := List.mem_append.mp he
      · exact hprompt.events _ e he
      · obtain rfl := List.mem_singleton.mp he
        exact fun _ => trivial
  | adminRoute hreach hguard hauth hroute =>
      have hauthorized := (is_authorized_iff rs r).mp (hreach.is_authorized hauth)
      refine permitted_before_close ?_ _
      exact admin_route_permitted (fun _ _ _ _ _ => rfl) hreach.parsed hauthorized hroute
        hauth.not_truncated
  | console hreach hguard hauth hroute => exact (serve_visitor_permitted hreach).events _
  | visitor hreach hguard => exact (serve_visitor_permitted hreach).events _

/-- In every reachable state, a request causes only what is permitted to it: the files of the site,
the sink, uploads and status messages are left to authorised requests for their routes, and the
commands to the history of the rules. -/
theorem every_event_is_permitted (rs : List Request) (r : Request) :
    ∀ e ∈ (dispatch r.plat r.raw (serveAll rs)).events, Permitted rs r e := by
  intro e he
  cases e with
  | popen command =>
      show command ∈ requestCommands (runHistory rs) r
      rw [← commands_of_records (tagged_serve_all rs) (records_of_run rs)]
      exact List.mem_filterMap.mpr ⟨_, he, rfl⟩
  | _ => exact dispatch_permitted rs r _ he rfl

/-- The session of a login changes the sink, on the route for it and as an authorised request. -/
theorem every_event_is_permitted_install :
    Event.installSink ⟨1, .syslog⟩ ∈
        (dispatch .bare sessionRequest.raw (serveAll [loginRequest])).events ∧
      Administers [loginRequest] sessionRequest (lit "/admin/logging") := by
  have hinstalled : Event.installSink ⟨1, .syslog⟩ ∈
      (dispatch .bare sessionRequest.raw (serveAll [loginRequest])).events := by
    decide +kernel
  exact ⟨hinstalled, every_event_is_permitted [loginRequest] sessionRequest _ hinstalled⟩

end Dvws
