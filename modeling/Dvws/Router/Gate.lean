import Dvws.Router.Authorization

/-!
# The gate of the admin area

Who is authorised is a matter of the run: `AuthorizedAfter` says it without the state. An authorised
request is handed to the handler of its route, and any other is refused; `admin_gate_is_exact` says
what comes of both.
-/

namespace Dvws

open Effect

/-- The request passes `require_basic_auth`, or brings the ID of a session that some request
before it logged in and none minted since. -/
def AuthorizedAfter (rs : List Request) (r : Request) : Prop :=
  ∃ req, HttpRequest.parse r.raw = .ok (true, req) ∧
    (PassesBasicAuth r.plat req ∨
      ∃ sessionId, getSessionIdFromCookie req.text = .ok sessionId ∧ LoggedIn rs sessionId)

/-- The server takes a request as authorised exactly when the history before it authorises it. -/
theorem is_authorized_iff (rs : List Request) (r : Request) :
    IsAuthorized (serveAll rs) r ↔ AuthorizedAfter rs r := by
  simp only [IsAuthorized, AuthorizedAfter, is_authenticated_iff_logged_in]

/-- The empty ID is never authenticated: no login marks it. -/
theorem not_authenticated_empty (rs : List Request) : ¬ IsAuthenticated (serveAll rs) [] := by
  rw [is_authenticated_iff_logged_in]
  rintro ⟨before, r, after, -, ⟨req, -, -, -, hne, -⟩, -⟩
  exact hne rfl

section Gate

variable {s : Server} {r : Request} {req : HttpRequest} {sessionId : Bytes}

/-- An authorised request for a guarded path other than `/whoami` is authorised by the router. -/
theorem IsAuthorized.authorize_run (hauth : IsAuthorized s r) (hempty : ¬ IsAuthenticated s [])
    {req : HttpRequest} {sessionId : Bytes} (hreach : Reaches r.raw req sessionId)
    (hpath : req.cleanPath ≠ whoamiPath) :
    ∃ s', Authorized r.plat req sessionId (counted s) s' ∧
      authorize r.plat req sessionId (counted s) = ⟨.ok true, s', []⟩ := by
  -- an authenticated session is admitted, as it has an ID
  have hadmits : isAdmitted (counted s) req sessionId = true ∨ PassesBasicAuth r.plat req := by
    obtain ⟨other, hparse, hauth⟩ := hauth
    obtain hpasses | ⟨otherId, hcookie, hauthenticated⟩ := hauth
    · obtain rfl : req = other := by simpa [hreach.parsed] using hparse
      exact .inr hpasses
    · obtain ⟨rfl, rfl⟩ := hreach.unique hparse (by
        obtain rfl : req = other := by simpa [hreach.parsed] using hparse
        exact hcookie)
      refine .inl ?_
      have hid : sessionId ≠ [] := fun hnil => hempty (hnil ▸ hauthenticated)
      simp only [isAdmitted, Bool.and_eq_true, bne_iff_ne, beq_iff_eq]
      exact ⟨⟨hpath, hid⟩, hauthenticated⟩
  obtain hrun | ⟨hnot, htrunc, -⟩ | ⟨hnot, -, hpasses, -⟩ :=
    authorize_cases r.plat req sessionId (counted s)
  · exact hrun
  · obtain hadmitted | hpasses := hadmits
    · exact absurd (hadmitted.symm.trans hnot) (by decide)
    · exact absurd htrunc hpasses.not_truncated
  · obtain hadmitted | hother := hadmits
    · exact absurd (hadmitted.symm.trans hnot) (by decide)
    · exact absurd hother hpasses

/-- The admin routes are guarded. -/
theorem guarded_of_route {path : Bytes} {handler : Platform → HttpRequest → Handler Unit}
    (hroute : adminRoutes.lookup path = some handler) : isGuarded path = true := by
  have hmem := mem_of_lookup hroute
  simp only [adminRoutes, List.mem_cons, Prod.mk.injEq, List.not_mem_nil, or_false] at hmem
  obtain ⟨h, -⟩ | ⟨h, -⟩ | ⟨h, -⟩ | ⟨h, -⟩ | ⟨h, -⟩ | ⟨h, -⟩ | ⟨h, -⟩ := hmem
  all_goals rw [h]
  all_goals decide

/-- A guarded request that is refused gets the prompt, and nothing else happens. -/
theorem refused_run (hreach : Reaches r.raw req sessionId)
    (hguard : isGuarded req.cleanPath = true)
    (hadmitted : isAdmitted (counted s) req sessionId = false)
    (htrunc : ¬ HasTruncatedAuth req) (hpasses : ¬ PassesBasicAuth r.plat req) :
    dispatch r.plat r.raw s =
      ⟨.ok (), counted s, (sendBasicAuthPrompt r.plat (counted s)).events ++ [.close]⟩ := by
  have hprompt : requireBasicAuth r.plat req =
      (sendBasicAuthPrompt r.plat >>= fun _ => pure false) := by
    obtain ⟨hthrows, -⟩ | ⟨-, hrun⟩ | ⟨-, hrun⟩ := require_basic_auth_cases r.plat req
    · exact absurd hthrows htrunc
    · exact absurd (fun s => by rw [hrun, pure_run]) hpasses
    · exact hrun
  have hsent : Behaves PlainEvent id (sendBasicAuthPrompt r.plat) := send_basic_auth_prompt_behaves
  obtain ⟨_, middle, events, hrun, rfl, -⟩ := hsent.exists_run (counted s)
  have hasked : requireBasicAuth r.plat req (counted s) = ⟨.ok false, counted s, events⟩ := by
    rw [hprompt, bind_run_of_ok hrun, pure_run, List.append_nil]
    rfl
  have hauthorize : authorize r.plat req sessionId (counted s) =
      ⟨.ok false, counted s, events⟩ := by
    have hadmitted : ¬ isAdmitted (counted s) req sessionId = true := by
      rw [hadmitted]
      exact Bool.false_ne_true
    unfold authorize
    rw [get_bind_run, if_neg hadmitted, bind_run_of_ok hasked]
    show Outcome.mk _ _ (events ++ []) = _
    rw [List.append_nil]
    rfl
  rw [hreach.dispatch_eq, if_pos hguard]
  unfold serveGuarded
  rw [bind_run_of_ok hauthorize, hrun]
  rfl

/-- A request for an admin route other than `/whoami` is handled when it is authorised. Otherwise
it is left by the exception, or refused with the prompt; either way nothing but its count is left
of it. -/
theorem admin_gate_is_exact (rs : List Request) {r : Request} {req : HttpRequest}
    {handler : Platform → HttpRequest → Handler Unit}
    (hparse : HttpRequest.parse r.raw = .ok (true, req))
    (hroute : adminRoutes.lookup req.cleanPath = some handler)
    (hpath : req.cleanPath ≠ whoamiPath) :
    (AuthorizedAfter rs r ∧ ∃ sessionId s',
      Authorized r.plat req sessionId (counted (serveAll rs)) s' ∧
        dispatch r.plat r.raw (serveAll rs) = (handler r.plat req >>= fun _ => closeSocket) s') ∨
    (¬ AuthorizedAfter rs r ∧ HasTruncatedAuth req ∧
      dispatch r.plat r.raw (serveAll rs) = ⟨.error .outOfRange, counted (serveAll rs), []⟩) ∨
    (¬ AuthorizedAfter rs r ∧ ¬ HasTruncatedAuth req ∧
      dispatch r.plat r.raw (serveAll rs) = ⟨.ok (), counted (serveAll rs),
        (sendBasicAuthPrompt r.plat (counted (serveAll rs))).events ++ [.close]⟩) := by
  have hguard := guarded_of_route hroute
  obtain ⟨sessionId, hcookie⟩ := get_session_id_from_cookie_returns req.text
  have hreach : Reaches r.raw req sessionId := ⟨hparse, not_open_of_guarded hguard, hcookie⟩
  have hunauthorized (hadmitted : isAdmitted (counted (serveAll rs)) req sessionId = false)
      (hpasses : ¬ PassesBasicAuth r.plat req) : ¬ AuthorizedAfter rs r := by
    intro hauth
    have hauth := (is_authorized_iff rs r).mpr hauth
    obtain ⟨s', hs', -⟩ := hauth.authorize_run (not_authenticated_empty rs) hreach hpath
    cases hs' with
    | session h => exact absurd (h.symm.trans hadmitted) (by decide)
    | credentials h _ => exact hpasses h
    | login h _ _ => exact hpasses h
  obtain ⟨s', hauth, hrun⟩ | ⟨hadmitted, htrunc, hrun⟩ | ⟨hadmitted, htrunc, hpasses, -⟩ :=
    authorize_cases r.plat req sessionId (counted (serveAll rs))
  · refine .inl ⟨(is_authorized_iff rs r).mp (hreach.is_authorized hauth), sessionId, s', hauth, ?_⟩
    rw [hreach.dispatch_eq, if_pos hguard, serveGuarded, bind_run_of_ok hrun, hroute]
    rfl
  · refine .inr (.inl ⟨hunauthorized hadmitted fun h => h.not_truncated htrunc, htrunc, ?_⟩)
    rw [hreach.dispatch_eq, if_pos hguard, serveGuarded, bind_run_of_error hrun]
  · refine .inr (.inr ⟨hunauthorized hadmitted hpasses, htrunc, ?_⟩)
    exact refused_run hreach hguard hadmitted htrunc hpasses

end Gate

/-- A request without credentials that brings the session of a login. -/
def sessionRequest : Request :=
  ⟨.bare, lit "GET /admin/logging?output=syslog HTTP/1.1\r\nCookie: session_id=s;\r\n\r\n"⟩

/-- `parse` accepts `sessionRequest` as one for the logging route. -/
theorem parse_session_request : HttpRequest.parse sessionRequest.raw =
    .ok (true, ⟨sessionRequest.raw, lit "GET", lit "/admin/logging", lit "output=syslog"⟩) := rfl

/-- After `loginRequest`, `sessionRequest` is handled. -/
theorem admin_gate_is_exact_session :
    ∃ s', dispatch .bare sessionRequest.raw (serveAll [loginRequest]) = (logging .bare
      ⟨sessionRequest.raw, lit "GET", lit "/admin/logging", lit "output=syslog"⟩ >>= fun _ =>
        closeSocket) s' := by
  have hauth : AuthorizedAfter [loginRequest] sessionRequest := by
    refine ⟨_, parse_session_request, .inr ⟨lit "s", by decide +kernel, ?_⟩⟩
    rw [← is_authenticated_iff_logged_in]
    show getSessionData (serveAll [loginRequest]) (lit "s") = authenticatedData
    decide +kernel
  obtain ⟨-, -, s', -, hrun⟩ | ⟨hnot, -⟩ | ⟨hnot, -⟩ := admin_gate_is_exact [loginRequest]
    (r := sessionRequest) parse_session_request (show adminRoutes.lookup _ = some logging from rfl)
    (by decide)
  · exact ⟨s', hrun⟩
  · exact absurd hauth hnot
  · exact absurd hauth hnot

end Dvws
