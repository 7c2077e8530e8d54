import Dvws.Router.Authorization

/-!
# Sessions minted for visitors

A visitor without a session cookie gets an ID that is a function of the clock and the process, and
the store takes whatever is there for a session of the past. The data of a session is either that
of the administrator or that of a visitor, so a visitor changes an existing session exactly when
the static files are reached and the ID is one that somebody has logged in under since it was
last minted.
-/

namespace Dvws

open Effect Transition

/-- The request gets to the static files without a session ID: it is accepted and for no open
route; if it is guarded, its credentials pass and it names no admin route; and no rule serves
it. -/
structure ReachesFiles (s : Server) (r : Request) (req : HttpRequest) : Prop where
  reaches : Reaches r.raw req []
  passes : isGuarded req.cleanPath = true → PassesBasicAuth r.plat req
  notAdmin : isGuarded req.cleanPath = true → adminRoutes.lookup req.cleanPath = none
  unruled : ¬ (lit "/cgi-bin/" <+: req.cleanPath ∧
    (servingRule s s.cgiRules req.cleanPath).isSome = true)

/-- What is known of an outcome for a request without a session ID: it stores the session that the
server mints at this time, or it leaves the sessions alone. -/
def StoresWhenReached (s : Server) (r : Request) (out : Outcome Server Event Exn Unit) : Prop :=
  (∃ req, ReachesFiles s r req) ∧ StoresFresh s (generateSessionId r.plat) out ∨
    (¬ ∃ req, ReachesFiles s r req) ∧ KeepsSessions s out

/-- Behind the rules a request without a session ID is served under a fresh one. -/
theorem serve_visitor_stores (plat : Platform) (req : HttpRequest) (s : Server) :
    StoresFresh s (generateSessionId plat) (serveVisitor plat req [] s) ∧
        ¬ (lit "/cgi-bin/" <+: req.cleanPath ∧
          (servingRule s s.cgiRules req.cleanPath).isSome = true) ∨
      KeepsSessions s (serveVisitor plat req [] s) ∧ lit "/cgi-bin/" <+: req.cleanPath ∧
          (servingRule s s.cgiRules req.cleanPath).isSome = true := by
  have hrules : Behaves MintsNothing Server.sessions (cgiDispatch plat req) :=
    mints_nothing_of_handler (handler_of_plain (cgi_dispatch_behaves (fun _ _ => rfl) req))
  obtain ⟨handled, hvalue, hhandled⟩ := cgi_dispatch_value plat req s
  rw [← hhandled]
  cases handled with
  | true =>
      refine .inr ⟨.after hrules hvalue fun middle => ?_, rfl⟩
      rw [if_pos rfl]
      exact keeps_sessions_of_behaves close_mints_nothing middle
  | false =>
      refine .inl ⟨.after hrules hvalue fun middle => ?_, Bool.false_ne_true⟩
      rw [if_neg Bool.false_ne_true]
      exact serve_files_stores_fresh plat req middle

/-- A request that has got past the guard is served, and stored if no rule serves it. -/
theorem Reaches.stores_when_reached {s : Server} {r : Request} {req : HttpRequest}
    (h : Reaches r.raw req [])
    (hpasses : isGuarded req.cleanPath = true → PassesBasicAuth r.plat req)
    (hroute : isGuarded req.cleanPath = true → adminRoutes.lookup req.cleanPath = none) :
    StoresWhenReached s r (serveVisitor r.plat req [] (counted s)) := by
  obtain ⟨hstores, hunruled⟩ | ⟨hkeeps, hruled⟩ := serve_visitor_stores r.plat req (counted s)
  · exact .inl ⟨⟨req, h, hpasses, hroute, hunruled⟩, hstores.sessions, hstores.mints⟩
  · refine .inr ⟨?_, hkeeps.of_counted⟩
    intro hreached
    obtain ⟨other, hother⟩ := hreached
    obtain ⟨rfl, -⟩ := h.unique hother.reaches.parsed hother.reaches.cookie
    exact hother.unruled hruled

/-- A request without a session ID reaches the session part without one. -/
theorem Reaches.eq_nil {raw : Bytes} {req : HttpRequest} {sessionId : Bytes}
    (h : Reaches raw req sessionId) (hcookie : getSessionIdFromCookie (cstr raw) = .ok []) :
    sessionId = [] := by
  rw [← text_of_parse h.parsed, h.cookie] at hcookie
  exact Except.ok.inj hcookie

/-- Without a session ID only the credentials authorise, and they mark no session. -/
theorem Authorized.of_no_session {plat : Platform} {req : HttpRequest} {s s' : Server}
    (h : Authorized plat req [] s s') : PassesBasicAuth plat req ∧ s' = s := by
  cases h with
  | session hadmitted => simp [isAdmitted] at hadmitted
  | credentials hpasses _ => exact ⟨hpasses, rfl⟩
  | login _ _ hne => exact absurd rfl hne

/-- Every way of a request without a session ID through `dispatch` is one of the two. -/
theorem Routed.stores_when_reached {s : Server} {r : Request}
    {out : Outcome Server Event Exn Unit} (h : Routed r.plat r.raw s out)
    (hcookie : getSessionIdFromCookie (cstr r.raw) = .ok []) : StoresWhenReached s r out := by
  cases h with
  | overrun hoverruns =>
      refine .inr ⟨?_, rfl, fun _ => List.not_mem_nil⟩
      intro hreached
      obtain ⟨other, hother⟩ := hreached
      exact hoverruns (fits_of_parse hother.reaches.parsed)
  | rejected hparse =>
      refine .inr ⟨?_, keeps_sessions_after (reject_request_behaves _) s⟩
      intro hreached
      obtain ⟨other, hother⟩ := hreached
      have hparsed := hother.reaches.parsed
      simp [hparse] at hparsed
  | @openRoute req handler hparse hroute =>
      refine .inr ⟨?_, (keeps_sessions_after (open_routes_behave hroute _) _).of_counted⟩
      intro hreached
      obtain ⟨other, hother⟩ := hreached
      obtain rfl : req = other := by simpa [hparse] using hother.reaches.parsed
      simp [hother.reaches.notOpen] at hroute
  | thrown hreach hguard hadmitted htrunc =>
      refine .inr ⟨?_, rfl, fun _ => List.not_mem_nil⟩
      intro hreached
      obtain ⟨other, hother⟩ := hreached
      obtain ⟨rfl, -⟩ := hreach.unique hother.reaches.parsed hother.reaches.cookie
      exact (hother.passes hguard).not_truncated htrunc
  | refused hreach hguard hadmitted htrunc hpasses hplain =>
      refine .inr ⟨?_, rfl, fun sessionId hmem => ?_⟩
      · intro hreached
        obtain ⟨other, hother⟩ := hreached
        obtain ⟨rfl, -⟩ := hreach.unique hother.reaches.parsed hother.reaches.cookie
        exact hpasses (hother.passes hguard)
      · obtain hmem | hmem := List.mem_append.mp hmem
        · exact hplain _ hmem
        · cases List.mem_singleton.mp hmem
  | @adminRoute req sessionId s' handler hreach hguard hauth hroute =>
      obtain rfl := hreach.eq_nil hcookie
      obtain ⟨hpasses, rfl⟩ := hauth.of_no_session
      have hhandler : Behaves PlainEvent Server.sessions (handler r.plat req) :=
        admin_routes_behave (fun _ _ _ _ _ => rfl) hroute fun _ => hpasses.not_truncated
      refine .inr ⟨?_, (keeps_sessions_after hhandler (counted s)).of_counted⟩
      intro hreached
      obtain ⟨other, hother⟩ := hreached
      obtain ⟨rfl, -⟩ := hreach.unique hother.reaches.parsed hother.reaches.cookie
      simp [hother.notAdmin hguard] at hroute
  | console hreach hguard hauth hroute =>
      obtain rfl := hreach.eq_nil hcookie
      obtain ⟨hpasses, rfl⟩ := hauth.of_no_session
      exact hreach.stores_when_reached (fun _ => hpasses) fun _ => hroute
  | visitor hreach hguard =>
      obtain rfl := hreach.eq_nil hcookie
      refine hreach.stores_when_reached (fun h => ?_) fun h => ?_
      · exact absurd (hguard.symm.trans h) (by decide)
      · exact absurd (hguard.symm.trans h) (by decide)

/-- The data of every session is that of the administrator or that of a visitor. -/
def OnlyKnownData (s : Server) : Prop :=
  ∀ sessionId data, s.sessions.lookup sessionId = some data →
    data = authenticatedData ∨ data = defaultData

/-- Storing known data keeps it so. -/
theorem OnlyKnownData.set {s s' : Server} (h : OnlyKnownData s) {id data : Bytes}
    (hs' : s'.sessions = (setSessionData s id data).sessions)
    (hdata : data = authenticatedData ∨ data = defaultData) : OnlyKnownData s' := by
  intro sessionId stored hlookup
  rw [hs', setSessionData] at hlookup
  by_cases hid : sessionId = id
  · rw [hid, AList.lookup_insert] at hlookup
    exact Option.some.inj hlookup ▸ hdata
  · rw [AList.lookup_insert_ne hid] at hlookup
    exact h sessionId stored hlookup

/-- Every session has known data in every reachable state. -/
theorem only_known_data_serve_all (rs : List Request) : OnlyKnownData (serveAll rs) := by
  refine runAll_invariant (fun sessionId data h => ?_) (fun s r h => ?_) rs
  · simp [Server.init] at h
  · cases session_step s r with
    | kept hsessions _ _ =>
        intro sessionId data hlookup
        rw [hsessions] at hlookup
        exact h sessionId data hlookup
    | login _ _ hsessions _ => exact h.set hsessions (.inl rfl)
    | fresh _ _ hsessions _ => exact h.set hsessions (.inr rfl)

/-- The sessions that exist keep their data when the request is dispatched. -/
def KeepsExisting (s : Server) (r : Request) : Prop :=
  ∀ sessionId, sessionId ∈ s.sessions →
    (serve s r).sessions.lookup sessionId = s.sessions.lookup sessionId

/-- A fresh session changes an existing one exactly when it takes an administrator's ID. -/
theorem keeps_existing_of_stored {s : Server} {r : Request} {id : Bytes} (h : OnlyKnownData s)
    (hstored : (serve s r).sessions = (setSessionData s id defaultData).sessions) :
    KeepsExisting s r ↔ ¬ IsAuthenticated s id := by
  constructor
  · intro hkeeps hauthenticated
    have hlookup : s.sessions.lookup id = some authenticatedData := by
      unfold IsAuthenticated getSessionData at hauthenticated
      cases hfound : s.sessions.lookup id with
      | none =>
          rw [hfound] at hauthenticated
          exact absurd hauthenticated (by decide)
      | some data =>
          rw [hfound] at hauthenticated
          exact congrArg some hauthenticated
    have hmem : id ∈ s.sessions := AList.lookup_isSome.mp (by rw [hlookup]; rfl)
    have hsame := hkeeps id hmem
    rw [hstored, setSessionData, AList.lookup_insert, hlookup] at hsame
    exact absurd (Option.some.inj hsame) (by decide)
  · intro hauthenticated sessionId hmem
    rw [hstored, setSessionData]
    by_cases hid : sessionId = id
    · obtain ⟨data, hdata⟩ := Option.isSome_iff_exists.mp (AList.lookup_isSome.mpr hmem)
      obtain rfl | rfl := h sessionId data hdata
      · refine absurd ?_ hauthenticated
        rw [IsAuthenticated, getSessionData, ← hid, hdata]
        rfl
      · rw [hdata, hid, AList.lookup_insert]
    · rw [AList.lookup_insert_ne hid]

/-- A visitor without a session ID leaves the existing sessions alone, unless the static files are
reached and somebody has logged in under the ID of this time since it was last minted. -/
theorem visitors_keep_sessions_iff (rs : List Request) (r : Request)
    (hcookie : getSessionIdFromCookie (cstr r.raw) = .ok []) :
    KeepsExisting (serveAll rs) r ↔
      ¬ ((∃ req, ReachesFiles (serveAll rs) r req) ∧ LoggedIn rs (generateSessionId r.plat)) := by
  obtain ⟨hreached, hstored⟩ | ⟨hnot, hkept⟩ :=
    (dispatch_routed r.plat r.raw (serveAll rs)).stores_when_reached hcookie
  · rw [keeps_existing_of_stored (only_known_data_serve_all rs) hstored.sessions,
      is_authenticated_iff_logged_in]
    exact not_congr (and_iff_right hreached).symm
  · refine iff_of_true (fun sessionId _ => ?_) fun h => hnot h.1
    rw [serve, hkept.sessions]

/-- `snprintf(buf, sizeof(buf), "SESSION_%08x", n)`. -/
def formatSessionId (n : Nat) : Bytes :=
  lit "SESSION_" ++ ((List.range 8).reverse.map fun i => hexDigit (n / 16 ^ i % 16))

/-- The first second of a server: `rand()` behind `srand(0)`, mixed with the process ID. -/
def firstSecond : Platform :=
  { Platform.bare with sessionId := fun _ pid => formatSessionId (Nat.xor 1804289383 pid) }

/-- Somebody who visits the site. -/
def visit : Request := ⟨firstSecond, lit "GET / HTTP/1.1\r\n\r\n"⟩

/-- And logs in under the session ID handed out. -/
def loginAfterVisit : Request :=
  ⟨firstSecond, lit ("GET /admin/ HTTP/1.1\r\nCookie: session_id=SESSION_6b8b4566;\r\n" ++
    "Authorization: Basic YWRtaW46YWRtaW4=\r\n\r\n")⟩

/-- The next visitor of the same second brings no session ID and takes the administrator's
session. -/
theorem session_not_kept_in_first_second :
    getSessionIdFromCookie (cstr visit.raw) = .ok [] ∧
      ¬ KeepsExisting (serveAll [visit, loginAfterVisit]) visit := by
  refine ⟨rfl, fun hkeeps => ?_⟩
  have hsame := hkeeps (lit "SESSION_6b8b4566") (by decide +kernel)
  exact absurd hsame (by decide +kernel)

/-- In the run of the first second the static files were reached, under an ID that was logged in. -/
theorem visitors_keep_sessions_iff_first_second :
    (∃ req, ReachesFiles (serveAll [visit, loginAfterVisit]) visit req) ∧
      LoggedIn [visit, loginAfterVisit] (generateSessionId visit.plat) := by
  by_contra h
  have hsame := (visitors_keep_sessions_iff [visit, loginAfterVisit] visit rfl).mpr h
    (lit "SESSION_6b8b4566") (by decide +kernel)
  exact absurd hsame (by decide +kernel)

end Dvws
