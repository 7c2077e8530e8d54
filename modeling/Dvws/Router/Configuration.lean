import Dvws.Router.SessionStep
import Dvws.Rules.Registry

/-!
# What one request does to the registry and the sink

The rules, their tags and the log sink are what the admin routes configure. Dispatch of rules
reads the tags with an inserting `operator[]`; it inserts nothing as long as every rule has a tag,
and every request keeps it so.
-/

namespace Dvws

open Effect

/-- The request passes `require_basic_auth` itself, or brings an ID that is authenticated. -/
def IsAuthorized (s : Server) (r : Request) : Prop :=
  ∃ req, HttpRequest.parse r.raw = .ok (true, req) ∧
    (PassesBasicAuth r.plat req ∨
      ∃ sessionId, getSessionIdFromCookie req.text = .ok sessionId ∧ IsAuthenticated s sessionId)

/-- The part of the state that the admin routes configure. -/
def configuration (s : Server) : List Route × (AList fun _ : Bytes => RouteType) × Option Sink :=
  (s.cgiRules, s.routeTypes, s.sink)

/-- A plain handler that keeps the configuration keeps it with the `close` behind it. -/
theorem configuration_after {x : Handler Unit} (hx : Behaves PlainEvent configuration x)
    (s : Server) : configuration ((x >>= fun _ => closeSocket) s).state = configuration s := by
  have hclosed : Behaves (fun _ => True) configuration (x >>= fun _ => closeSocket) :=
    .bind (hx.weaken (fun _ _ => trivial) id) fun _ => .emit trivial
  exact hclosed.state s

/-- With every rule tagged, the end of `dispatch` keeps the configuration. -/
theorem serve_visitor_configuration {s : Server} (h : Tagged s) (plat : Platform)
    (req : HttpRequest) (sessionId : Bytes) :
    configuration (serveVisitor plat req sessionId s).state = configuration s := by
  have hrules : Behaves PlainEvent (fun _ => ()) (cgiDispatch plat req) :=
    cgi_dispatch_behaves (fun _ _ => rfl) req
  have hstatic (cookie : Bytes) : Behaves (fun _ => True) configuration
      (serveStatic plat req cookie >>= fun _ => closeSocket) :=
    .bind ((serve_static_behaves req cookie).weaken (fun _ _ => trivial) id)
      fun _ => .emit trivial
  have hrest (handled : Bool) : Behaves (fun _ => True) configuration
      (if handled then closeSocket else serveFiles plat req sessionId) := by
    refine .ite (.emit trivial) (.ite (.bind ?_ hstatic) (hstatic []))
    exact .bind (.emit trivial) fun _ => .bind (.modify fun _ => rfl) fun _ => .pure _
  obtain ⟨handled, middle, first, hrun, -, -⟩ := hrules.exists_run s
  -- with every rule tagged the search has inserted nothing
  have hmiddle : middle = s := by
    rw [← h.cgi_dispatch_state plat req, hrun]
  unfold serveVisitor
  rw [bind_run_of_ok hrun, hmiddle]
  exact (hrest handled).state s

/-- Authorisation leaves the configuration alone. -/
theorem Authorized.configuration_eq {plat : Platform} {req : HttpRequest} {sessionId : Bytes}
    {s s' : Server} (h : Authorized plat req sessionId s s') :
    configuration s' = configuration s := by
  cases h with
  | session _ | credentials _ _ | login _ _ _ => rfl

/-- Whether every rule is tagged depends on the configuration alone. -/
theorem tagged_of_configuration_eq {s s' : Server} (h : configuration s' = configuration s)
    (htagged : Tagged s) : Tagged s' := by
  simp only [configuration, Prod.mk.injEq] at h
  unfold Tagged
  rw [h.1, h.2.1]
  exact htagged

/-- A request that is authorised when it has been counted was authorised before. -/
theorem Reaches.is_authorized {r : Request} {req : HttpRequest} {sessionId : Bytes}
    {s s' : Server} (h : Reaches r.raw req sessionId)
    (hauth : Authorized r.plat req sessionId (counted s) s') : IsAuthorized s r := by
  refine ⟨req, h.parsed, ?_⟩
  cases hauth with
  | session hadmitted =>
      simp only [isAdmitted, Bool.and_eq_true, beq_iff_eq] at hadmitted
      exact .inr ⟨sessionId, h.cookie, hadmitted.2⟩
  | credentials hpasses _ => exact .inl hpasses
  | login hpasses _ _ => exact .inl hpasses

/-- A handler that keeps both records keeps them together. -/
theorem tagged_of_behaves {x : Handler Unit}
    (hx : Behaves PlainEvent (fun s => (s.cgiRules, s.routeTypes)) x) {s : Server}
    (h : Tagged s) : Tagged (x s).state := by
  have hsame := hx.state s
  simp only [Prod.mk.injEq] at hsame
  unfold Tagged
  rw [hsame.1, hsame.2]
  exact h

/-- A handler of the admin area keeps the two records of the registry together. -/
theorem tagged_admin_route {s : Server} (h : Tagged s) {plat : Platform} {req : HttpRequest}
    {handler : Platform → HttpRequest → Handler Unit}
    (hroute : adminRoutes.lookup req.cleanPath = some handler)
    (hauth : req.cleanPath = whoamiPath → ¬ HasTruncatedAuth req) :
    Tagged (handler plat req s).state := by
  have hmem := mem_of_lookup hroute
  simp only [adminRoutes, List.mem_cons, Prod.mk.injEq, List.not_mem_nil, or_false] at hmem
  obtain ⟨-, rfl⟩ | ⟨-, rfl⟩ | ⟨-, rfl⟩ | ⟨-, rfl⟩ | ⟨-, rfl⟩ | ⟨-, rfl⟩ | ⟨hpath, rfl⟩ := hmem
  · exact tagged_of_behaves (system_status_behaves req) h
  · exact tagged_of_behaves (upload_file_behaves req) h
  · exact tagged_add_rule h plat req
  · exact tagged_update_rule h plat req
  · exact tagged_of_behaves (logging_behaves (fun _ _ _ => rfl) req) h
  · exact tagged_of_behaves (deploy_site_behaves req) h
  · obtain ⟨auth, hvalue⟩ := extract_header_value_returns req.text (lit "Authorization" ++ lit ":")
    refine tagged_of_behaves (whoami_behaves hvalue fun htrunc => ?_) h
    exact hauth hpath ⟨auth, hvalue, htrunc⟩

/-- Closing the socket after a handler leaves its state. -/
theorem state_after_close {x : Handler Unit} (hx : Behaves PlainEvent (fun _ => ()) x)
    (s : Server) : ((x >>= fun _ => closeSocket) s).state = (x s).state := by
  obtain ⟨_, middle, first, hrun, -, -⟩ := hx.exists_run s
  rw [bind_run_of_ok hrun, hrun]
  rfl

/-- What one request does to the registry and the sink: nothing, or what an admin handler does for
an authorised request. -/
inductive ConfigurationStep (s : Server) (r : Request) : Server → Prop where
  | kept {s'} (h : configuration s' = configuration s) : ConfigurationStep s r s'
  | configured {s'} (hauth : IsAuthorized s r) (htagged : Tagged s') : ConfigurationStep s r s'

/-- With every rule tagged, every request takes one of the two steps. -/
theorem configuration_step {s : Server} (h : Tagged s) (r : Request) :
    ConfigurationStep s r (serve s r) := by
  have hrouted := dispatch_routed r.plat r.raw s
  unfold serve
  generalize dispatch r.plat r.raw s = out at hrouted
  cases hrouted with
  | rejected hparse => exact .kept (configuration_after (reject_request_behaves _) s)
  | openRoute hparse hroute =>
      exact .kept (configuration_after (open_routes_behave hroute _) (counted s))
  | overrun | thrown | refused => exact .kept rfl
  | adminRoute hreach hguard hauth hroute =>
      have htagged := tagged_of_configuration_eq hauth.configuration_eq h
      refine .configured (hreach.is_authorized hauth) ?_
      rw [state_after_close (admin_routes_behave (fun _ _ _ _ _ => rfl) hroute hauth.not_truncated)]
      exact tagged_admin_route htagged hroute hauth.not_truncated
  | console hreach hguard hauth hroute =>
      -- no admin route has the path, so the request goes on to rules and files
      have hsame := hauth.configuration_eq
      refine .kept ((serve_visitor_configuration ?_ ..).trans hsame)
      exact tagged_of_configuration_eq hsame h
  | visitor hreach hguard =>
      have htagged : Tagged (counted s) := h
      exact .kept (serve_visitor_configuration htagged ..)

/-- Every request keeps the two records of the registry together. -/
theorem tagged_serve {s : Server} (h : Tagged s) (r : Request) : Tagged (serve s r) := by
  cases configuration_step h r with
  | kept hsame => exact tagged_of_configuration_eq hsame h
  | configured _ htagged => exact htagged

end Dvws
