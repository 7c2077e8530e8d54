import Dvws.Http.RequestLine
import Dvws.Router.Dispatch

/-!
# Where a request goes

`Routed plat raw s out` lists the ways through `dispatch`, with what holds on each of them;
`dispatch_routed` says there is no other. The results about the router are case analyses over it
and do not look at the code again.
-/

namespace Dvws

open Effect

/-! ## Credentials -/

/-- `require_basic_auth` returns `true` for the request; the server's state plays no part. -/
def PassesBasicAuth (plat : Platform) (req : HttpRequest) : Prop :=
  ∀ s, (requireBasicAuth plat req s).value = .ok true

/-- The request has an `Authorization` value, and it is shorter than `"Basic "`. -/
def HasTruncatedAuth (req : HttpRequest) : Prop :=
  ∃ auth, header req.text (lit "Authorization") = .ok auth ∧ Truncated auth

/-- `require_basic_auth` throws on a truncated value, passes, or asks for credentials. -/
theorem require_basic_auth_cases (plat : Platform) (req : HttpRequest) :
    (HasTruncatedAuth req ∧ requireBasicAuth plat req = lift (.error .outOfRange)) ∨
    (¬ HasTruncatedAuth req ∧ requireBasicAuth plat req = pure true) ∨
    (¬ HasTruncatedAuth req ∧
      requireBasicAuth plat req = (sendBasicAuthPrompt plat >>= fun _ => pure false)) := by
  obtain ⟨auth, hauth⟩ := extract_header_value_returns req.text (lit "Authorization" ++ lit ":")
  have hheader : header req.text (lit "Authorization") = .ok auth := hauth
  by_cases htrunc : Truncated auth
  · refine .inl ⟨⟨auth, hheader, htrunc⟩, ?_⟩
    unfold requireBasicAuth
    rw [hheader, lift_ok_bind, supplied_credentials_throws _ htrunc]
    rfl
  · have hnot : ¬ HasTruncatedAuth req := by
      intro hother
      obtain ⟨auth', hauth', htrunc'⟩ := hother
      rw [hheader, Except.ok.injEq] at hauth'
      exact htrunc (hauth' ▸ htrunc')
    obtain ⟨credentials, hcredentials⟩ := supplied_credentials_returns plat.malloc htrunc
    unfold requireBasicAuth
    rw [hheader, lift_ok_bind, hcredentials, lift_ok_bind]
    by_cases hvalid : areValid credentials = true
    · exact .inr (.inl ⟨hnot, if_pos hvalid⟩)
    · exact .inr (.inr ⟨hnot, if_neg hvalid⟩)

/-- Asking for credentials is plain and changes nothing. -/
theorem prompt_run (plat : Platform) (s : Server) :
    ∃ events, (sendBasicAuthPrompt plat >>= fun _ => pure false) s = ⟨.ok false, s, events⟩ ∧
      ∀ e ∈ events, PlainEvent e := by
  have hprompt : Behaves PlainEvent id (sendBasicAuthPrompt plat) :=
    send_basic_auth_prompt_behaves
  obtain ⟨_, middle, events, hrun, rfl, hplain⟩ := hprompt.exists_run s
  refine ⟨events, ?_, hplain⟩
  rw [bind_run_of_ok hrun]
  simp

/-- A request that passes has no truncated value. -/
theorem PassesBasicAuth.not_truncated {plat : Platform} {req : HttpRequest}
    (h : PassesBasicAuth plat req) : ¬ HasTruncatedAuth req := by
  obtain ⟨_, hthrows⟩ | ⟨hnot, _⟩ | ⟨hnot, _⟩ := require_basic_auth_cases plat req
  · have hvalue := h Server.init
    rw [hthrows] at hvalue
    cases hvalue
  · exact hnot
  · exact hnot

/-- One run of `require_basic_auth` tells whether the request passes. -/
theorem passes_basic_auth_iff {plat : Platform} {req : HttpRequest} (s : Server) :
    PassesBasicAuth plat req ↔ (requireBasicAuth plat req s).value = .ok true := by
  refine ⟨fun h => h s, fun h s' => ?_⟩
  obtain ⟨_, hrun⟩ | ⟨_, hrun⟩ | ⟨_, hrun⟩ := require_basic_auth_cases plat req
  · rw [hrun] at h
    cases h
  · rw [hrun]
    rfl
  · obtain ⟨events, hprompt, _⟩ := prompt_run plat s
    rw [hrun, hprompt] at h
    cases h

/-! ## Authorisation -/

/-- The request is authorised in the first state and leaves the second: by its session, by
credentials alone, or by credentials that mark the session it names. -/
inductive Authorized (plat : Platform) (req : HttpRequest) (sessionId : Bytes) :
    Server → Server → Prop where
  | session {s} (h : isAdmitted s req sessionId = true) : Authorized plat req sessionId s s
  | credentials {s} (hpasses : PassesBasicAuth plat req)
      (h : req.cleanPath = whoamiPath ∨ sessionId = []) : Authorized plat req sessionId s s
  | login {s} (hpasses : PassesBasicAuth plat req) (hpath : req.cleanPath ≠ whoamiPath)
      (hsession : sessionId ≠ []) :
      Authorized plat req sessionId s (setSessionData s sessionId authenticatedData)

/-- `authorize` ends authorised without an event, by the exception, or refused after the prompt. -/
theorem authorize_cases (plat : Platform) (req : HttpRequest) (sessionId : Bytes) (s : Server) :
    (∃ s', Authorized plat req sessionId s s' ∧
      authorize plat req sessionId s = ⟨.ok true, s', []⟩) ∨
    (isAdmitted s req sessionId = false ∧ HasTruncatedAuth req ∧
      authorize plat req sessionId s = ⟨.error .outOfRange, s, []⟩) ∨
    (isAdmitted s req sessionId = false ∧ ¬ HasTruncatedAuth req ∧ ¬ PassesBasicAuth plat req ∧
      ∃ events, authorize plat req sessionId s = ⟨.ok false, s, events⟩ ∧
        ∀ e ∈ events, PlainEvent e) := by
  unfold authorize
  rw [get_bind_run]
  by_cases hadmitted : isAdmitted s req sessionId = true
  · exact .inl ⟨s, .session hadmitted, by rw [if_pos hadmitted, pure_run]⟩
  rw [if_neg hadmitted]
  have hadmitted : isAdmitted s req sessionId = false := Bool.eq_false_iff.mpr hadmitted
  obtain ⟨htrunc, hrun⟩ | ⟨_, hrun⟩ | ⟨hnot, hrun⟩ := require_basic_auth_cases plat req
  · refine .inr (.inl ⟨hadmitted, htrunc, ?_⟩)
    rw [hrun]
    rfl
  · have hpasses : PassesBasicAuth plat req := fun s => by rw [hrun, pure_run]
    rw [hrun]
    -- the credentials pass; they mark the session that the request names, if any
    by_cases hmark : req.cleanPath ≠ whoamiPath ∧ sessionId ≠ []
    · refine .inl ⟨_, .login hpasses hmark.1 hmark.2, ?_⟩
      simp [bind, markAuthenticated, hmark]
    · refine .inl ⟨s, .credentials hpasses ?_, ?_⟩
      · by_contra hneither
        exact hmark ⟨fun h => hneither (.inl h), fun h => hneither (.inr h)⟩
      · have hmark : (req.cleanPath != whoamiPath && sessionId != []) = false := by
          simpa using hmark
        simp [bind, markAuthenticated, hmark]
  · -- `require_basic_auth` has answered; nothing else is sent
    obtain ⟨events, hprompt, hplain⟩ := prompt_run plat s
    refine .inr (.inr ⟨hadmitted, hnot, ?_, events, ?_, hplain⟩)
    · rw [passes_basic_auth_iff s, hrun, hprompt]
      simp
    · rw [hrun, bind_run_of_ok hprompt]
      simp [bind, markAuthenticated]

/-! ## Routes -/

/-- The request is accepted, is for none of the open routes, and names the session. -/
structure Reaches (raw : Bytes) (req : HttpRequest) (sessionId : Bytes) : Prop where
  parsed : HttpRequest.parse raw = .ok (true, req)
  notOpen : openRoutes.lookup req.cleanPath = none
  cookie : getSessionIdFromCookie req.text = .ok sessionId

/-- A text is parsed in one way only, and names one session. -/
theorem Reaches.unique {raw : Bytes} {req other : HttpRequest} {sessionId otherId : Bytes}
    (h : Reaches raw req sessionId) (hparse : HttpRequest.parse raw = .ok (true, other))
    (hcookie : getSessionIdFromCookie other.text = .ok otherId) :
    req = other ∧ sessionId = otherId := by
  obtain rfl : req = other := by simpa [h.parsed] using hparse
  exact ⟨rfl, by simpa [h.cookie] using hcookie⟩

/-- The state after the request was counted. -/
def counted (s : Server) : Server := { s with requestCount := s.requestCount + 1 }

/-- Counting is all that the counter's function does. -/
theorem status_bump_run (s : Server) : statusBumpRequestCounter s = ⟨.ok (), counted s, []⟩ := rfl

/-- The ways of a request through `dispatch`. -/
inductive Routed (plat : Platform) (raw : Bytes) (s : Server) :
    Outcome Server Event Exn Unit → Prop where
  | overrun (hoverruns : ¬ FitsCleanPath (cstr raw)) :
      Routed plat raw s ⟨.error .overrun, s, []⟩
  | rejected {req} (hparse : HttpRequest.parse raw = .ok (false, req)) :
      Routed plat raw s ((rejectRequest plat req >>= fun _ => closeSocket) s)
  | openRoute {req handler} (hparse : HttpRequest.parse raw = .ok (true, req))
      (hroute : openRoutes.lookup req.cleanPath = some handler) :
      Routed plat raw s ((handler plat req >>= fun _ => closeSocket) (counted s))
  | thrown {req sessionId} (hreach : Reaches raw req sessionId)
      (hguard : isGuarded req.cleanPath = true) (hadmitted : isAdmitted s req sessionId = false)
      (htrunc : HasTruncatedAuth req) : Routed plat raw s ⟨.error .outOfRange, counted s, []⟩
  | refused {req sessionId events} (hreach : Reaches raw req sessionId)
      (hguard : isGuarded req.cleanPath = true) (hadmitted : isAdmitted s req sessionId = false)
      (htrunc : ¬ HasTruncatedAuth req) (hpasses : ¬ PassesBasicAuth plat req)
      (hplain : ∀ e ∈ events, PlainEvent e) :
      Routed plat raw s ⟨.ok (), counted s, events ++ [.close]⟩
  | adminRoute {req sessionId s' handler} (hreach : Reaches raw req sessionId)
      (hguard : isGuarded req.cleanPath = true)
      (hauth : Authorized plat req sessionId (counted s) s')
      (hroute : adminRoutes.lookup req.cleanPath = some handler) :
      Routed plat raw s ((handler plat req >>= fun _ => closeSocket) s')
  | console {req sessionId s'} (hreach : Reaches raw req sessionId)
      (hguard : isGuarded req.cleanPath = true)
      (hauth : Authorized plat req sessionId (counted s) s')
      (hroute : adminRoutes.lookup req.cleanPath = none) :
      Routed plat raw s (serveVisitor plat req sessionId s')
  | visitor {req sessionId} (hreach : Reaches raw req sessionId)
      (hguard : isGuarded req.cleanPath = false) :
      Routed plat raw s (serveVisitor plat req sessionId (counted s))

/-- The guarded part takes one of the ways behind the guard. -/
theorem serve_guarded_routed {plat : Platform} {raw : Bytes} {s : Server} {req : HttpRequest}
    {sessionId : Bytes} (hreach : Reaches raw req sessionId)
    (hguard : isGuarded req.cleanPath = true) :
    Routed plat raw s (serveGuarded plat req sessionId (counted s)) := by
  unfold serveGuarded
  obtain ⟨s', hauth, hrun⟩ | ⟨hadmitted, htrunc, hrun⟩ |
    ⟨hadmitted, htrunc, hpasses, events, hrun, hplain⟩ :=
      authorize_cases plat req sessionId (counted s)
  · rw [bind_run_of_ok hrun]
    cases hroute : adminRoutes.lookup req.cleanPath with
    | none => exact .console hreach hguard hauth hroute
    | some handler => exact .adminRoute hreach hguard hauth hroute
  · rw [bind_run_of_error hrun]
    exact .thrown hreach hguard hadmitted htrunc
  · rw [bind_run_of_ok hrun]
    exact .refused hreach hguard hadmitted htrunc hpasses hplain

/-- An accepted request is counted, and served by its open route or with its session. -/
theorem dispatch_of_parsed {plat : Platform} {raw : Bytes} {req : HttpRequest}
    (hparse : HttpRequest.parse raw = .ok (true, req)) (s : Server) :
    dispatch plat raw s =
      match openRoutes.lookup req.cleanPath with
      | some handler => (handler plat req >>= fun _ => closeSocket) (counted s)
      | none => serveSession plat req (counted s) := by
  unfold dispatch
  rw [hparse, lift_ok_bind]
  show serveAccepted plat req s = _
  unfold serveAccepted
  rw [bind_run_of_ok (status_bump_run s)]
  cases openRoutes.lookup req.cleanPath with
  | some handler => rfl
  | none => rfl

/-- A request whose target does not fit is not answered. -/
theorem dispatch_of_overrun {raw : Bytes} (h : ¬ FitsCleanPath (cstr raw)) (plat : Platform)
    (s : Server) : dispatch plat raw s = ⟨.error .overrun, s, []⟩ := by
  unfold dispatch
  rw [parse_overruns h]
  rfl

/-- A request that reaches the session part is guarded or comes from a visitor. -/
theorem Reaches.dispatch_eq {raw : Bytes} {req : HttpRequest} {sessionId : Bytes}
    (h : Reaches raw req sessionId) (plat : Platform) (s : Server) :
    dispatch plat raw s =
      if isGuarded req.cleanPath then serveGuarded plat req sessionId (counted s)
      else serveVisitor plat req sessionId (counted s) := by
  rw [dispatch_of_parsed h.parsed, h.notOpen]
  dsimp only
  unfold serveSession
  rw [h.cookie, lift_ok_bind]
  split
  · rfl
  · rfl

/-- `dispatch` takes one of the ways that `Routed` lists. -/
theorem dispatch_routed (plat : Platform) (raw : Bytes) (s : Server) :
    Routed plat raw s (dispatch plat raw s) := by
  by_cases hfits : FitsCleanPath (cstr raw)
  swap
  · rw [dispatch_of_overrun hfits]
    exact .overrun hfits
  obtain ⟨accepted, req, hparse, -⟩ := parse_returns hfits
  cases accepted with
  | false =>
      unfold dispatch
      rw [hparse, lift_ok_bind]
      exact .rejected hparse
  | true =>
      cases hroute : openRoutes.lookup req.cleanPath with
      | some handler =>
          rw [dispatch_of_parsed hparse, hroute]
          exact .openRoute hparse hroute
      | none =>
          obtain ⟨sessionId, hcookie⟩ := get_session_id_from_cookie_returns req.text
          have hreach : Reaches raw req sessionId := ⟨hparse, hroute, hcookie⟩
          rw [hreach.dispatch_eq]
          by_cases hguard : isGuarded req.cleanPath = true
          · rw [if_pos hguard]
            exact serve_guarded_routed hreach hguard
          · rw [if_neg hguard]
            exact .visitor hreach (Bool.eq_false_iff.mpr hguard)

/-! ## The handlers -/

section Handlers

variable {κ : Type} {keep : Server → κ} {plat : Platform}

/-- The handler of a path is an entry of the table. -/
theorem mem_of_lookup {α β : Type} [BEq α] [LawfulBEq α] {table : List (α × β)} {key : α}
    {entry : β} (h : table.lookup key = some entry) : (key, entry) ∈ table := by
  obtain ⟨before, after, rfl, -⟩ := List.lookup_eq_some_iff.mp h
  simp

/-- No open route is guarded. -/
theorem not_open_of_guarded {path : Bytes} (h : isGuarded path = true) :
    openRoutes.lookup path = none := by
  cases hroute : openRoutes.lookup path with
  | none => rfl
  | some handler =>
      have hmem := mem_of_lookup hroute
      simp only [openRoutes, List.mem_cons, Prod.mk.injEq, List.not_mem_nil, or_false] at hmem
      obtain ⟨rfl, -⟩ | ⟨rfl, -⟩ | ⟨rfl, -⟩ | ⟨rfl, -⟩ := hmem
      all_goals exact absurd h (by decide)

/-- The open routes are plain and change nothing. -/
theorem open_routes_behave {path : Bytes} {handler : Platform → HttpRequest → Handler Unit}
    (h : openRoutes.lookup path = some handler) (req : HttpRequest) :
    Behaves PlainEvent keep (handler plat req) := by
  have hmem := mem_of_lookup h
  simp only [openRoutes, List.mem_cons, Prod.mk.injEq, List.not_mem_nil, or_false] at hmem
  obtain ⟨-, rfl⟩ | ⟨-, rfl⟩ | ⟨-, rfl⟩ | ⟨-, rfl⟩ := hmem
  · exact status_behaves req
  · exact handle_log_viewer_behaves req.text
  · exact echo_request_behaves req
  · exact handle_cgi_helper_behaves ..

/-- The admin routes are plain and touch the registries and the sink only, unless `whoami` gets a
truncated `Authorization` value. -/
theorem admin_routes_behave {handler : Platform → HttpRequest → Handler Unit} {req : HttpRequest}
    (hkeep : ∀ s rules types sink made, keep { s with
      cgiRules := rules, routeTypes := types, sink := sink, sinksMade := made } = keep s)
    (h : adminRoutes.lookup req.cleanPath = some handler)
    (hauth : req.cleanPath = whoamiPath → ¬ HasTruncatedAuth req) :
    Behaves PlainEvent keep (handler plat req) := by
  have hmem := mem_of_lookup h
  simp only [adminRoutes, List.mem_cons, Prod.mk.injEq, List.not_mem_nil, or_false] at hmem
  obtain ⟨-, rfl⟩ | ⟨-, rfl⟩ | ⟨-, rfl⟩ | ⟨-, rfl⟩ | ⟨-, rfl⟩ | ⟨-, rfl⟩ | ⟨hpath, rfl⟩ := hmem
  · exact system_status_behaves req
  · exact upload_file_behaves req
  · exact add_rule_behaves (fun s _ _ => hkeep s _ _ s.sink s.sinksMade) req
  · exact update_rule_behaves (fun s _ => hkeep s s.cgiRules _ s.sink s.sinksMade) req
  · exact logging_behaves (fun s _ _ => hkeep s s.cgiRules s.routeTypes _ _) req
  · exact deploy_site_behaves req
  · -- `whoami` extracts the credentials once more
    obtain ⟨auth, hvalue⟩ := extract_header_value_returns req.text (lit "Authorization" ++ lit ":")
    exact whoami_behaves hvalue fun htrunc => hauth hpath ⟨auth, hvalue, htrunc⟩

/-- On the `/whoami` route an authorised request has no truncated value. -/
theorem Authorized.not_truncated {req : HttpRequest} {sessionId : Bytes} {s s' : Server}
    (h : Authorized plat req sessionId s s') (hpath : req.cleanPath = whoamiPath) :
    ¬ HasTruncatedAuth req := by
  cases h with
  | session hadmitted => simp [isAdmitted, hpath] at hadmitted
  | credentials hpasses _ => exact hpasses.not_truncated
  | login _ hne _ => exact absurd hpath hne

/-- The answer to a rejected request is plain. -/
theorem reject_request_behaves (req : HttpRequest) :
    Behaves PlainEvent keep (rejectRequest plat req) :=
  .ite (send_status_behaves server_is_plain ..) (send_status_behaves server_is_plain ..)

end Handlers

end Dvws
