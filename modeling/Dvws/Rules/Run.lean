import Dvws.Router.Gate
import Dvws.Rules.History
import Dvws.Transition.Past

/-!
# The registry over whole runs of the server

The history of the registry is told by requests that were granted: those to `add_rule` and
`update_rule` that were authorised when they came, by credentials or by a session that had been
logged in and not minted since. `records_of_run` is the connection: after any run the registry of
the server is that of this history.
-/

namespace Dvws

open Effect Tagging Transition

/-- What the request asks of the registry. -/
def registryRequest (r : Request) : Option RuleRequest :=
  match HttpRequest.parse r.raw with
  | .ok (true, req) =>
      if req.cleanPath = lit "/admin/add_rule" then some (.add r.plat req)
      else if req.cleanPath = lit "/admin/update_rule" then some (.update r.plat req)
      else none
  | _ => none

open Classical in
/-- What an authorised request asks of the registry. -/
noncomputable def grantedRequest (past : List Request) (r : Request) : Option RuleRequest :=
  if AuthorizedAfter past r then registryRequest r else none

/-- The requests to the registry that were authorised when they came. -/
noncomputable def granted (rs : List Request) : List RuleRequest :=
  (withPast rs).filterMap fun (past, r) => grantedRequest past r

/-- The part of the state that the history tells. -/
def registry (s : Server) : List Route × AList fun _ : Bytes => RouteType :=
  (s.cgiRules, s.routeTypes)

/-- The records are a matter of the registry alone. -/
theorem Records.congr {s s' : Server} {history : List RuleChange} (h : Records s history)
    (hsame : registry s' = registry s) : Records s' history := by
  obtain ⟨hrules, htypes⟩ := Prod.mk.inj hsame
  exact ⟨hrules.trans h.rules, fun path => by rw [htypes, h.types]⟩

section Step

variable {s : Server} {r : Request} {q : RuleRequest}

/-- A request to the registry is accepted, and its path is that of the handler. -/
theorem registry_request_cases (hq : registryRequest r = some q) :
    ∃ req handler, HttpRequest.parse r.raw = .ok (true, req) ∧ isGuarded req.cleanPath = true ∧
      req.cleanPath ≠ whoamiPath ∧ adminRoutes.lookup req.cleanPath = some handler ∧
        handler r.plat req = q.handle := by
  unfold registryRequest at hq
  split at hq
  · next req hparse =>
    by_cases hadd : req.cleanPath = lit "/admin/add_rule"
    · rw [if_pos hadd] at hq
      cases hq
      refine ⟨req, addRule, hparse, ?_⟩
      rw [hadd]
      exact ⟨by decide, by decide, rfl, rfl⟩
    · rw [if_neg hadd] at hq
      obtain ⟨hupdate, hq⟩ := Option.ite_none_right_eq_some.mp hq
      cases hq
      refine ⟨req, updateRule, hparse, ?_⟩
      rw [hupdate]
      exact ⟨by decide, by decide, rfl, rfl⟩
  · cases hq

/-- A request for one of the two routes is a request to the registry. -/
theorem registry_request_of_path {req : HttpRequest}
    (hparse : HttpRequest.parse r.raw = .ok (true, req))
    (hpath : req.cleanPath = lit "/admin/add_rule" ∨ req.cleanPath = lit "/admin/update_rule") :
    registryRequest r ≠ none := by
  unfold registryRequest
  rw [hparse]
  dsimp only
  obtain hadd | hupdate := hpath
  · rw [if_pos hadd]
    exact Option.some_ne_none _
  · have hne : req.cleanPath ≠ lit "/admin/add_rule" := by
      rw [hupdate]
      decide
    rw [if_neg hne, if_pos hupdate]
    exact Option.some_ne_none _

/-- An authorised request to the registry is handled. -/
theorem serve_of_granted (hauth : IsAuthorized s r) (hempty : ¬ IsAuthenticated s [])
    (hq : registryRequest r = some q) :
    ∃ s', registry s' = registry s ∧ serve s r = (q.handle s').state := by
  obtain ⟨req, handler, hparse, hguard, hpath, hroute, hhandler⟩ := registry_request_cases hq
  obtain ⟨sessionId, hcookie⟩ := get_session_id_from_cookie_returns req.text
  have hreach : Reaches r.raw req sessionId := ⟨hparse, not_open_of_guarded hguard, hcookie⟩
  obtain ⟨s', hs', hrun⟩ := hauth.authorize_run hempty hreach hpath
  refine ⟨s', ?_, ?_⟩
  · have hsame := hs'.configuration_eq
    simp only [configuration, Prod.mk.injEq] at hsame
    exact Prod.ext hsame.1 hsame.2.1
  · unfold serve
    rw [hreach.dispatch_eq, if_pos hguard, serveGuarded, bind_run_of_ok hrun, hroute]
    dsimp only
    rw [if_pos rfl, state_after_close, hhandler]
    exact admin_routes_behave (fun _ _ _ _ _ => rfl) hroute hs'.not_truncated

/-- The other routes of the admin area leave the registry alone. -/
theorem registry_of_admin_route {req : HttpRequest}
    (hparse : HttpRequest.parse r.raw = .ok (true, req)) (hother : registryRequest r = none)
    {handler : Platform → HttpRequest → Handler Unit}
    (hroute : adminRoutes.lookup req.cleanPath = some handler)
    (hauth : req.cleanPath = whoamiPath → ¬ HasTruncatedAuth req) (s : Server) :
    registry (handler r.plat req s).state = registry s := by
  have hmem := mem_of_lookup hroute
  simp only [adminRoutes, List.mem_cons, Prod.mk.injEq, List.not_mem_nil, or_false] at hmem
  obtain ⟨-, rfl⟩ | ⟨-, rfl⟩ | ⟨hpath, -⟩ | ⟨hpath, -⟩ | ⟨-, rfl⟩ | ⟨-, rfl⟩ | ⟨hpath, rfl⟩ := hmem
  · exact (system_status_behaves req).state s
  · exact (upload_file_behaves req).state s
  · exact absurd hother (registry_request_of_path hparse (.inl hpath))
  · exact absurd hother (registry_request_of_path hparse (.inr hpath))
  · have hlogging : Behaves PlainEvent registry (logging r.plat req) :=
      logging_behaves (fun _ _ _ => rfl) req
    exact hlogging.state s
  · exact (deploy_site_behaves req).state s
  · obtain ⟨auth, hvalue⟩ := extract_header_value_returns req.text (lit "Authorization" ++ lit ":")
    have hwhoami : Behaves PlainEvent registry (whoami r.plat req) :=
      whoami_behaves hvalue fun htrunc => hauth hpath ⟨auth, hvalue, htrunc⟩
    exact hwhoami.state s

/-- Whatever else comes leaves the registry as it is. -/
theorem registry_of_other (htagged : Tagged s)
    (hother : ¬ IsAuthorized s r ∨ registryRequest r = none) :
    registry (serve s r) = registry s := by
  have hkept {s' : Server} (h : configuration s' = configuration s) : registry s' = registry s := by
    simp only [configuration, Prod.mk.injEq] at h
    exact Prod.ext h.1 h.2.1
  obtain hnot | hother := hother
  · cases configuration_step htagged r with
    | kept hsame => exact hkept hsame
    | configured hauth _ => exact absurd hauth hnot
  · have hrouted := dispatch_routed r.plat r.raw s
    unfold serve
    generalize dispatch r.plat r.raw s = out at hrouted
    cases hrouted with
    | rejected hparse => exact hkept (configuration_after (reject_request_behaves _) s)
    | openRoute hparse hroute =>
        exact hkept (configuration_after (open_routes_behave hroute _) (counted s))
    | overrun | thrown | refused => rfl
    | adminRoute hreach hguard hauth hroute =>
        have hsame := hkept (hauth.configuration_eq)
        rw [state_after_close
          (admin_routes_behave (fun _ _ _ _ _ => rfl) hroute hauth.not_truncated)]
        exact (registry_of_admin_route hreach.parsed hother hroute
          hauth.not_truncated _).trans hsame
    | console hreach hguard hauth hroute =>
        have hsame := hauth.configuration_eq
        refine hkept ((serve_visitor_configuration ?_ ..).trans hsame)
        exact tagged_of_configuration_eq hsame htagged
    | visitor hreach hguard =>
        have htagged : Tagged (counted s) := htagged
        exact hkept (serve_visitor_configuration htagged ..)

end Step

/-- The granted requests grow by the last one, if it is authorised and to the registry. -/
theorem granted_concat (rs : List Request) (r : Request) :
    (granted (rs ++ [r]) = granted rs ∧ (¬ AuthorizedAfter rs r ∨ registryRequest r = none)) ∨
      ∃ q, granted (rs ++ [r]) = granted rs ++ [q] ∧ AuthorizedAfter rs r ∧
        registryRequest r = some q := by
  have hconcat : granted (rs ++ [r]) = granted rs ++ (grantedRequest rs r).toList := by
    cases h : grantedRequest rs r with
    | none => simp [granted, withPast_concat, h]
    | some q => simp [granted, withPast_concat, h]
  rw [hconcat]
  by_cases hauth : AuthorizedAfter rs r
  · have hgranted : grantedRequest rs r = registryRequest r := if_pos hauth
    rw [hgranted]
    cases hq : registryRequest r with
    | none => exact .inl ⟨List.append_nil _, .inr rfl⟩
    | some q => exact .inr ⟨q, rfl, hauth, rfl⟩
  · have hgranted : grantedRequest rs r = none := if_neg hauth
    rw [hgranted]
    exact .inl ⟨List.append_nil _, .inl hauth⟩

/-- The history of a run. -/
noncomputable def runHistory (rs : List Request) : List RuleChange := historyOf (granted rs)

/-- After any run the registry is that of the requests that were granted. -/
theorem records_of_run (rs : List Request) : Records (serveAll rs) (runHistory rs) := by
  induction rs using List.reverseRecOn with
  | nil => exact ⟨rfl, fun path => rfl⟩
  | append_singleton rs r ih =>
      have hserve : serveAll (rs ++ [r]) = serve (serveAll rs) r := runAll_concat ..
      have htagged := tagged_serve_all rs
      rw [hserve, runHistory]
      obtain ⟨hsame, hother⟩ | ⟨q, hmore, hauth, hq⟩ := granted_concat rs r
      · rw [hsame]
        rw [← is_authorized_iff] at hother
        exact ih.congr (registry_of_other htagged hother)
      · obtain ⟨s', hs', hhandled⟩ := serve_of_granted ((is_authorized_iff rs r).mpr hauth)
          (not_authenticated_empty rs) hq
        have hhistory : historyOf (granted rs ++ [q]) = extend (runHistory rs) q := by
          simp [historyOf, runHistory]
        have htagged' : Tagged s' := by
          obtain ⟨hrules, htypes⟩ := Prod.mk.inj hs'
          unfold Tagged
          rw [hrules, htypes]
          exact htagged
        rw [hmore, hhistory, hhandled]
        exact (records_extend htagged' (ih.congr hs') q).2

end Dvws
