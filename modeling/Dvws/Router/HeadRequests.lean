import Dvws.Handlers.Head
import Dvws.Router.Routed
import Dvws.Rules.Registry

/-!
# HEAD requests

A HEAD request is served like the GET request with the same text behind the method token, without
the body. It is so of every request that is `Regular` and reaches none of three places (`Deviates`):
the echo page, whose length depends on the method; the log viewer with a command that fails; and a
CGI rule, which answers without a look at the method. `head_matches_iff` proves that these are the
only ones, and that each of them answers a HEAD request otherwise.
-/

namespace Dvws

open Effect

/-- The request makes the server run a CGI rule. -/
def RunsRule (s : Server) (req : HttpRequest) : Prop :=
  lit "/cgi-bin/" <+: req.cleanPath ∧ (servingRule s s.cgiRules req.cleanPath).isSome = true

/-- The request is answered by a handler that does not answer HEAD as it answers GET. -/
def Deviates (plat : Platform) (s : Server) (req : HttpRequest) : Prop :=
  req.cleanPath = lit "/echo" ∨
    (req.cleanPath = lit "/logs" ∧ LogCommandFails plat req.text) ∨ RunsRule s req

/-! ## Rules and sessions -/

section Parts

variable {plat : Platform} {req twin : HttpRequest} {s : Server}

/-- The search for a rule looks at the path only. -/
theorem cast_rule_twin (h : twin.cleanPath = req.cleanPath) (rules : List Route) :
    castRule twin rules = castRule req rules := by
  induction rules with
  | nil => rfl
  | cons rule rules ih =>
      unfold castRule
      rw [h, ih]

/-- Rules are run alike for a request and its twin. -/
theorem cgi_dispatch_twin (htwins : Twins req twin) :
    cgiDispatch plat twin = cgiDispatch plat req := by
  rcases htwins.path with hpath | ⟨hpath, htwin⟩
  · unfold cgiDispatch
    rw [hpath]
    simp only [cast_rule_twin hpath]
  · unfold cgiDispatch
    rw [hpath, htwin]
    rfl

/-- The search finds the rule that serves the path, without an event. -/
theorem cast_rule_silent (s : Server) (req : HttpRequest) (rules : List Route) :
    ∃ middle, castRule req rules s = ⟨.ok (servingRule s rules req.cleanPath), middle, []⟩ := by
  have hsearch : Behaves (fun _ => False) (fun _ => ()) (castRule req rules) :=
    cast_rule_behaves (fun _ _ => rfl) req rules
  have hvalue := cast_rule_value s req rules
  obtain ⟨found, middle, first, hrun, -, hfirst⟩ := hsearch.exists_run s
  obtain rfl : first = [] := List.eq_nil_iff_forall_not_mem.mpr hfirst
  rw [hrun] at hvalue
  exact ⟨middle, by rw [hrun, Except.ok.inj hvalue]⟩

/-- A request that runs no rule is left to the static files. -/
theorem cgi_dispatch_silent (plat : Platform) (hrule : ¬ RunsRule s req) :
    (cgiDispatch plat req s).value = .ok false ∧
      Silent (cgiDispatch plat req) (cgiDispatch plat req) s := by
  unfold cgiDispatch
  by_cases hpath : lit "/cgi-bin/" <+: req.cleanPath
  · have hnone : servingRule s s.cgiRules req.cleanPath = none := by
      by_contra hsome
      exact hrule ⟨hpath, Option.isSome_iff_ne_none.mpr hsome⟩
    obtain ⟨middle, hrun⟩ := cast_rule_silent s req s.cgiRules
    rw [hnone] at hrun
    rw [if_pos (List.isPrefixOf_iff_prefix.mpr hpath)]
    constructor
    · rw [get_bind_run, bind_run_of_ok hrun]
      rfl
    · refine quiet_self ?_
      rw [get_bind_run, bind_run_of_ok hrun]
      rfl
  · rw [if_neg (fun h => hpath (List.isPrefixOf_iff_prefix.mp h))]
    exact ⟨rfl, quiet_pure false s⟩

/-- The session is marked without an answer. -/
theorem mark_authenticated_silent (mark : Bool) (sessionId : Bytes) :
    Silent (markAuthenticated mark sessionId) (markAuthenticated mark sessionId) s := by
  unfold markAuthenticated
  split
  · exact quiet_modify _ s
  · exact quiet_pure () s

/-- A request and its twin supply the same credentials. -/
theorem authorize_twin (htwins : Twins req twin) (hpath : twin.cleanPath = req.cleanPath)
    (sessionId : Bytes) : authorize plat twin sessionId = authorize plat req sessionId := by
  unfold authorize requireBasicAuth isAdmitted header
  rw [hpath, htwins.header_eq (lit "Authorization" ++ lit ":") (by decide) (by decide)
    (by decide)]

/-- Whoever is not authorised gets the prompt, which is a header. -/
theorem authorize_matches (hplat : plat.Attentive) (sessionId : Bytes) :
    Matches (authorize plat req sessionId) (authorize plat req sessionId) s := by
  have hauth (middle : Server) :
      Matches (requireBasicAuth plat req) (requireBasicAuth plat req) middle := by
    obtain ⟨-, hrun⟩ | ⟨-, hrun⟩ | ⟨-, hrun⟩ := require_basic_auth_cases plat req
    · rw [hrun]
      exact (quiet_lift _ middle).answers
    · rw [hrun]
      exact (quiet_pure true middle).answers
    · rw [hrun]
      exact (send_basic_auth_prompt_matches hplat middle).then_quiet fun _ middle _ _ =>
        quiet_pure false middle
  refine (quiet_get s).then_answers fun server middle _ _ => ?_
  refine .ite (fun _ => (quiet_pure true middle).answers) fun _ => ?_
  refine (hauth middle).then_quiet fun passed middle _ _ => ?_
  exact (mark_authenticated_silent ..).bind fun _ middle _ _ => quiet_pure passed middle

/-- Closing the socket sends nothing. -/
theorem close_socket_silent : Silent closeSocket closeSocket s := quiet_emit rfl s

/-- A session is minted without an answer. -/
theorem mint_session_silent : Silent (mintSession plat) (mintSession plat) s := by
  refine (quiet_emit rfl s).bind fun _ middle _ _ => ?_
  exact (quiet_modify _ middle).bind fun _ middle _ _ => quiet_pure _ middle

variable (hplat : plat.Attentive) (htwins : Twins req twin)

include hplat htwins

/-- The static files, with a session for whoever brings none, send the twin the same header. -/
theorem serve_files_matches (sessionId : Bytes) :
    Matches (serveFiles plat req sessionId) (serveFiles plat.forTwin twin sessionId) s := by
  refine .ite (fun _ => ?_) fun _ => ?_
  · refine mint_session_silent.then_answers fun cookie middle _ _ => ?_
    exact (serve_static_matches hplat htwins cookie middle).then_quiet fun _ _ _ _ =>
      close_socket_silent
  · exact (serve_static_matches hplat htwins [] s).then_quiet fun _ _ _ _ => close_socket_silent

/-- The end of `dispatch`, for a request that runs no rule. -/
theorem serve_visitor_matches (hrule : ¬ RunsRule s req) (sessionId : Bytes) :
    Matches (serveVisitor plat req sessionId) (serveVisitor plat.forTwin twin sessionId) s := by
  have hsame : cgiDispatch plat.forTwin twin = cgiDispatch plat req := cgi_dispatch_twin htwins
  unfold serveVisitor
  rw [hsame]
  obtain ⟨hvalue, hsilent⟩ := cgi_dispatch_silent plat hrule
  refine hsilent.then_answers fun handled middle hhandled _ => ?_
  obtain rfl : false = handled := Except.ok.inj (hvalue.symm.trans hhandled)
  exact serve_files_matches hplat htwins sessionId

omit hplat htwins in
/-- The guarded paths have no rules. -/
theorem not_runs_rule_of_guarded (h : isGuarded req.cleanPath = true) : ¬ RunsRule s req := by
  intro hrule
  rcases (Bool.or_eq_true _ _).mp h with hadmin | hwhoami
  · have hshort : adminPrefix <+: lit "/cgi-bin/" :=
      List.prefix_of_prefix_length_le (List.isPrefixOf_iff_prefix.mp hadmin) hrule.1 (by decide)
    exact absurd hshort (by decide)
  · have hbegins : lit "/cgi-bin/" <+: whoamiPath := eq_of_beq hwhoami ▸ hrule.1
    exact absurd hbegins (by decide)

/-- The admin routes send the twin the same header. -/
theorem admin_route_matches {path : Bytes} {handler : Platform → HttpRequest → Handler Unit}
    (h : adminRoutes.lookup path = some handler) :
    Matches (handler plat req) (handler plat.forTwin twin) s := by
  have hmem := mem_of_lookup h
  simp only [adminRoutes, List.mem_cons, Prod.mk.injEq, List.not_mem_nil, or_false] at hmem
  obtain ⟨-, rfl⟩ | ⟨-, rfl⟩ | ⟨-, rfl⟩ | ⟨-, rfl⟩ | ⟨-, rfl⟩ | ⟨-, rfl⟩ | ⟨-, rfl⟩ := hmem
  · exact system_status_matches hplat htwins s
  · exact upload_file_matches hplat htwins s
  · exact add_rule_matches hplat htwins s
  · exact update_rule_matches hplat htwins s
  · exact logging_matches hplat htwins s
  · exact deploy_site_matches hplat htwins s
  · exact whoami_matches hplat htwins s

/-- The guarded routes send the twin the same header. -/
theorem serve_guarded_matches (hguard : isGuarded req.cleanPath = true) (sessionId : Bytes) :
    Matches (serveGuarded plat req sessionId) (serveGuarded plat.forTwin twin sessionId) s := by
  have hroot : req.cleanPath ≠ [] := by
    intro hroot
    rw [hroot] at hguard
    exact absurd hguard (by decide)
  have hpath := htwins.path_eq hroot
  have hsame : authorize plat.forTwin twin sessionId = authorize plat req sessionId :=
    authorize_twin htwins hpath sessionId
  unfold serveGuarded
  rw [hsame, hpath]
  rcases authorize_cases plat req sessionId s with ⟨s', -, hrun⟩ | ⟨-, -, hrun⟩ |
    ⟨-, -, -, events, hrun, -⟩
  -- authorised
  · have hsilent : Silent (authorize plat req sessionId) (authorize plat req sessionId) s :=
      quiet_self (by rw [hrun]; rfl)
    refine hsilent.then_answers fun authorized middle hauthorized _ => ?_
    rw [hrun] at hauthorized
    obtain rfl : true = authorized := Except.ok.inj hauthorized
    rw [if_pos rfl, if_pos rfl]
    cases hroute : adminRoutes.lookup req.cleanPath with
    | none =>
        exact serve_visitor_matches hplat htwins (not_runs_rule_of_guarded hguard) sessionId
    | some handler =>
        exact (admin_route_matches hplat htwins hroute).then_quiet fun _ _ _ _ =>
          close_socket_silent
  -- left by the exception, with no answer
  · have hsilent : Silent (authorize plat req sessionId) (authorize plat req sessionId) s :=
      quiet_self (by rw [hrun]; rfl)
    refine hsilent.then_answers fun authorized middle hauthorized _ => ?_
    rw [hrun] at hauthorized
    cases hauthorized
  -- refused: the prompt is the answer
  · refine (authorize_matches hplat sessionId).then_quiet fun authorized middle hauthorized _ => ?_
    rw [hrun] at hauthorized
    obtain rfl : false = authorized := Except.ok.inj hauthorized
    rw [if_neg Bool.false_ne_true, if_neg Bool.false_ne_true]
    exact close_socket_silent

/-- The routes behind the open ones send the twin the same header, unless a rule is run. -/
theorem serve_session_matches (hrule : ¬ RunsRule s req) :
    Matches (serveSession plat req) (serveSession plat.forTwin twin) s := by
  have hguard : isGuarded twin.cleanPath = isGuarded req.cleanPath :=
    htwins.path_congr isGuarded rfl
  obtain ⟨found, hfound⟩ := get_session_id_from_cookie_returns req.text
  unfold serveSession
  rw [htwins.session_eq, hguard, hfound, lift_ok_bind, lift_ok_bind]
  refine .ite (fun h => serve_guarded_matches hplat htwins h found) fun _ => ?_
  exact serve_visitor_matches hplat htwins hrule found

omit hplat in
/-- Both are for the same open route, or for none. -/
theorem open_route_twin : openRoutes.lookup twin.cleanPath = openRoutes.lookup req.cleanPath :=
  htwins.path_congr (fun cleanPath => openRoutes.lookup cleanPath) rfl

/-- The open routes, but for the places where they deviate, send the twin the same header. -/
theorem open_route_matches {handler : Platform → HttpRequest → Handler Unit}
    (hroute : openRoutes.lookup req.cleanPath = some handler) (hnot : ¬ Deviates plat s req)
    (middle : Server) : Matches (handler plat req) (handler plat.forTwin twin) middle := by
  have hmem := mem_of_lookup hroute
  simp only [openRoutes, List.mem_cons, Prod.mk.injEq, List.not_mem_nil, or_false] at hmem
  obtain ⟨-, rfl⟩ | ⟨hpath, rfl⟩ | ⟨hpath, rfl⟩ | ⟨-, rfl⟩ := hmem
  · exact status_matches hplat htwins middle
  · exact handle_log_viewer_matches hplat htwins
      (fun hfails => hnot (.inr (.inl ⟨hpath, hfails⟩))) middle
  -- the echo page deviates for every request
  · exact absurd (.inl hpath) hnot
  · exact handle_cgi_helper_matches hplat htwins middle

/-- A request that does not deviate gets the header that its twin gets. -/
theorem serve_accepted_matches (hnot : ¬ Deviates plat s req) :
    Matches (serveAccepted plat req) (serveAccepted plat.forTwin twin) s := by
  unfold serveAccepted
  rw [open_route_twin htwins]
  refine (quiet_modify _ s).then_answers fun _ middle _ hmiddle => ?_
  cases hroute : openRoutes.lookup req.cleanPath with
  | some handler =>
      exact (open_route_matches hplat htwins hroute hnot middle).then_quiet fun _ _ _ _ =>
        close_socket_silent
  | none =>
      subst hmiddle
      exact serve_session_matches hplat htwins fun hrule => hnot (.inr (.inr hrule))

end Parts

/-! ## What deviates -/

section Deviations

variable {plat : Platform} {raw : Bytes} {req : HttpRequest} {s : Server}

/-- A request for an open route is sent what its handler sends. -/
theorem sent_of_open_route {handler : Platform → HttpRequest → Handler Unit}
    (hparse : HttpRequest.parse raw = .ok (true, req))
    (hroute : openRoutes.lookup req.cleanPath = some handler) :
    shown sentData (dispatch plat raw s).events =
      shown sentData (handler plat req (counted s)).events := by
  have hplain : Behaves PlainEvent id (handler plat req) := open_routes_behave hroute req
  obtain ⟨_, middle, first, hrun, -, -⟩ := hplain.exists_run (counted s)
  rw [dispatch_of_parsed hparse, hroute]
  dsimp only
  rw [shown_bind hrun, hrun]
  exact List.append_nil _

/-- The path of a rule is that of no open route. -/
theorem not_open_of_rule (h : lit "/cgi-bin/" <+: req.cleanPath) :
    openRoutes.lookup req.cleanPath = none := by
  cases hroute : openRoutes.lookup req.cleanPath with
  | none => rfl
  | some handler =>
      have hmem := mem_of_lookup hroute
      simp only [openRoutes, List.mem_cons, Prod.mk.injEq, List.not_mem_nil, or_false] at hmem
      obtain ⟨hpath, -⟩ | ⟨hpath, -⟩ | ⟨hpath, -⟩ | ⟨hpath, -⟩ := hmem
      all_goals
        rw [hpath] at h
        exact absurd h (by decide)

/-- A rule that is run sends two pieces. -/
theorem sends_twice_of_cgi_dispatch (hplat : plat.Attentive) (hrule : RunsRule s req) :
    ∃ middle events, cgiDispatch plat req s = ⟨.ok true, middle, events⟩ ∧
      (shown sentData events).length = 2 := by
  obtain ⟨hpath, hserved⟩ := hrule
  obtain ⟨rule, hserving⟩ := Option.isSome_iff_exists.mp hserved
  obtain ⟨middle, hsearch⟩ := cast_rule_silent s req s.cgiRules
  obtain ⟨events, hexecute⟩ := execute_run plat rule.executable middle
  have htwice := sends_twice_of_execute hplat rule.executable middle
  rw [hexecute] at htwice
  refine ⟨middle, events, ?_, htwice⟩
  unfold cgiDispatch
  rw [if_pos (List.isPrefixOf_iff_prefix.mpr hpath), get_bind_run, bind_run_of_ok hsearch,
    hserving]
  dsimp only
  rw [bind_run_of_ok hexecute]
  simp

/-- A request that runs a rule is sent what the rule sends. -/
theorem sends_twice_of_rule (hplat : plat.Attentive)
    (hparse : HttpRequest.parse raw = .ok (true, req)) (hrule : RunsRule s req) :
    (shown sentData (dispatch plat raw s).events).length = 2 := by
  have hguard : isGuarded req.cleanPath = false := by
    by_contra hguard
    rw [Bool.not_eq_false] at hguard
    exact not_runs_rule_of_guarded hguard hrule
  obtain ⟨sessionId, hcookie⟩ := get_session_id_from_cookie_returns req.text
  have hreach : Reaches raw req sessionId := ⟨hparse, not_open_of_rule hrule.1, hcookie⟩
  have hcounted : RunsRule (counted s) req := hrule
  obtain ⟨middle, events, hrun, htwice⟩ := sends_twice_of_cgi_dispatch hplat hcounted
  rw [hreach.dispatch_eq, hguard, if_neg Bool.false_ne_true]
  unfold serveVisitor
  rw [shown_bind hrun, List.length_append, htwice]
  rfl

end Deviations

/-! ## The responses -/

/-- The surroundings with a client that takes all that it is sent. -/
def Platform.attentive (plat : Platform) : Platform := { plat with sendOk := fun _ => true }

/-- What such a client is sent, piece by piece. -/
def response (plat : Platform) (s : Server) (raw : Bytes) : List Bytes :=
  shown sentData (dispatch plat.attentive raw s).events

/-- The HEAD request with this text behind its method token is answered with the header of the
answer to the GET request, and nothing more. -/
structure HeadMatches (plat : Platform) (s : Server) (rest : Bytes) : Prop where
  header : response plat.forTwin s (headRequest rest) =
    (response plat s (getRequest rest)).take 1
  isHeader : ∀ data ∈ (response plat s (getRequest rest)).head?, IsHeader data

section Responses

variable {plat : Platform} {s : Server} {rest : Bytes} {req : HttpRequest}

/-- A client that takes all it is sent is attentive. -/
theorem attentive_attentive (plat : Platform) : plat.attentive.Attentive := fun _ => rfl

/-- Where nothing deviates, the twin of a regular request is answered with the header. -/
theorem head_matches_of_not_deviates
    (hparse : HttpRequest.parse (getRequest rest) = .ok (true, req)) (hregular : Regular rest)
    (hnot : ¬ Deviates plat s req) : HeadMatches plat s rest := by
  obtain ⟨twin, htwinParse, htwins⟩ := twins_of_regular hregular hparse
  have hserved : Matches (serveAccepted plat.attentive req)
      (serveAccepted plat.attentive.forTwin twin) s :=
    serve_accepted_matches (attentive_attentive plat) htwins hnot
  have hget : dispatch plat.attentive (getRequest rest) s = serveAccepted plat.attentive req s := by
    unfold dispatch
    rw [hparse, lift_ok_bind]
    rfl
  have hhead : dispatch plat.forTwin.attentive (headRequest rest) s =
      serveAccepted plat.attentive.forTwin twin s := by
    unfold dispatch
    rw [htwinParse, lift_ok_bind]
    rfl
  constructor
  · unfold response
    rw [hget, hhead]
    exact hserved.first
  · unfold response
    rw [hget]
    exact hserved.opening

/-- A length can be read off the header. -/
theorem length_of_status_header {statusCode contentType extraHeaders : Bytes} {n m : Nat}
    (h : statusHeader plat statusCode contentType n extraHeaders =
      statusHeader plat statusCode contentType m extraHeaders) : n = m := by
  have hdigits : toDecimal n = toDecimal m := by simpa [statusHeader] using h
  exact to_decimal_injective hdigits

/-- The echo page has another length for the twin. -/
theorem not_head_matches_of_echo {twin : HttpRequest}
    (hparse : HttpRequest.parse (getRequest rest) = .ok (true, req))
    (htwinParse : HttpRequest.parse (headRequest rest) = .ok (true, twin))
    (htwins : Twins req twin) (hpath : req.cleanPath = lit "/echo") :
    ¬ HeadMatches plat s rest := by
  intro hmatches
  have htwinPath : twin.cleanPath = req.cleanPath := htwins.path_eq (by rw [hpath]; decide)
  have hroute : openRoutes.lookup req.cleanPath = some echoRequest := by
    rw [hpath]
    rfl
  have htwinRoute : openRoutes.lookup twin.cleanPath = some echoRequest := by
    rw [htwinPath]
    exact hroute
  obtain ⟨page, twinPage, hpage, htwinPage, hlength⟩ :=
    echo_request_twin htwins plat.attentive htwinPath
  have hget : response plat s (getRequest rest) = shown sentData (echoRequest plat.attentive req
      (counted s)).events := sent_of_open_route hparse hroute
  have hhead : response plat.forTwin s (headRequest rest) = shown sentData
      (echoRequest plat.attentive twin (counted s)).events :=
    sent_of_open_route htwinParse htwinRoute
  have hfirst := (send_status_matches (attentive_attentive plat) (lit "200 OK") htmlType .server
    page [] (counted s)).first
  have hsame := hmatches.header
  rw [hget, hhead, hpage, htwinPage, ← hfirst,
    send_status_run_head (attentive_attentive plat),
    send_status_run_head (attentive_attentive plat)] at hsame
  have hheader := (List.cons.inj hsame).1
  have hlengths := length_of_status_header hheader
  omega

/-- A twin that is sent two pieces is not answered with a header alone. -/
theorem not_head_matches_of_twice
    (h : (response plat.forTwin s (headRequest rest)).length = 2) : ¬ HeadMatches plat s rest := by
  intro hmatches
  have hlength := congrArg List.length hmatches.header
  rw [h, List.length_take] at hlength
  omega

/-- Where something deviates, the twin of a regular request is answered otherwise. -/
theorem not_head_matches_of_deviates
    (hparse : HttpRequest.parse (getRequest rest) = .ok (true, req)) (hregular : Regular rest)
    (hdeviates : Deviates plat s req) : ¬ HeadMatches plat s rest := by
  obtain ⟨twin, htwinParse, htwins⟩ := twins_of_regular hregular hparse
  rcases hdeviates with hecho | ⟨hlogs, hfails⟩ | hrule
  · exact not_head_matches_of_echo hparse htwinParse htwins hecho
  · refine not_head_matches_of_twice ?_
    have hpath : twin.cleanPath = lit "/logs" := by
      rw [htwins.path_eq (by rw [hlogs]; decide), hlogs]
    have hroute : openRoutes.lookup twin.cleanPath =
        some fun plat req => handleLogViewer plat req.text := by
      rw [hpath]
      rfl
    have htwinFails : LogCommandFails plat.forTwin.attentive twin.text := by
      unfold LogCommandFails
      rw [htwins.parameters_eq]
      exact hfails
    unfold response
    rw [sent_of_open_route htwinParse hroute]
    exact sends_twice_of_logs (attentive_attentive _) htwinFails (counted s)
  · refine not_head_matches_of_twice ?_
    have hne : req.cleanPath ≠ [] := by
      intro hroot
      have hbegins := hrule.1
      rw [hroot] at hbegins
      exact absurd hbegins (by decide)
    have htwinRule : RunsRule s twin := by
      unfold RunsRule
      rw [htwins.path_eq hne]
      exact hrule
    exact sends_twice_of_rule (attentive_attentive _) htwinParse htwinRule

/-- The twin of a regular GET request that is accepted is answered with the header of the answer to
the GET request, and nothing more, exactly where nothing deviates. -/
theorem head_matches_iff (hparse : HttpRequest.parse (getRequest rest) = .ok (true, req))
    (hregular : Regular rest) : HeadMatches plat s rest ↔ ¬ Deviates plat s req := by
  constructor
  · intro hmatches hdeviates
    exact not_head_matches_of_deviates hparse hregular hdeviates hmatches
  · exact head_matches_of_not_deviates hparse hregular

end Responses

/-- A request for a page. -/
def pageRequest : HttpRequest :=
  ⟨getRequest (lit "/index.html?x=1 HTTP/1.1\r\nHost: localhost\r\n\r\n"), lit "GET",
    lit "/index.html", lit "x=1"⟩

/-- The twin of a request for a page is answered with the header of the answer. -/
theorem head_matches_iff_page : HeadMatches .bare Server.init
    (lit "/index.html?x=1 HTTP/1.1\r\nHost: localhost\r\n\r\n") := by
  have hparse : HttpRequest.parse pageRequest.raw = .ok (true, pageRequest) := rfl
  refine (head_matches_iff hparse ⟨⟨lit "index.html?x=1 HTTP/1.1\r\nHost: localhost\r\n\r\n", 14,
    rfl, rfl, by decide, by decide⟩, by decide, by decide⟩).mpr ?_
  rintro (hecho | ⟨hlogs, -⟩ | ⟨hpath, -⟩)
  · exact absurd hecho (by decide)
  · exact absurd hlogs (by decide)
  · exact absurd hpath (by decide)

/-- A request for the echo page. -/
def echoingRequest : HttpRequest :=
  ⟨getRequest (lit "/echo HTTP/1.1\r\n\r\n"), lit "GET", lit "/echo", []⟩

/-- The twin of a request for the echo page is answered with another length. -/
theorem head_differs_on_echo :
    HttpRequest.parse echoingRequest.raw = .ok (true, echoingRequest) ∧
      ¬ HeadMatches .bare Server.init (lit "/echo HTTP/1.1\r\n\r\n") := by
  have hparse : HttpRequest.parse echoingRequest.raw = .ok (true, echoingRequest) := rfl
  refine ⟨hparse, not_head_matches_of_deviates hparse ?_ (Or.inl rfl)⟩
  exact ⟨⟨lit "echo HTTP/1.1\r\n\r\n", 4, rfl, rfl, by decide, by decide⟩, by decide, by decide⟩

end Dvws
