import Dvws.Router.Routed

/-!
# What one request does to the sessions

The session store is written in two places: where a login marks the session that the request
names, and where a visitor without one gets a fresh session. `session_step` says that a request
does one of the two or leaves the store as it is, and ties each to what can be seen of the
request.
-/

namespace Dvws

open Effect

/-- A request with the surroundings it meets. -/
structure Request where
  plat : Platform
  raw : Bytes

/-- The state after a request was dispatched. -/
def serve (s : Server) (r : Request) : Server := (dispatch r.plat r.raw s).state

/-- The data of the session is that of the administrator. -/
def IsAuthenticated (s : Server) (sessionId : Bytes) : Prop :=
  getSessionData s sessionId = authenticatedData

/-- The request is for a path in the admin area, brings the nonempty session ID, and passes
`require_basic_auth`. -/
def LogsIn (r : Request) (sessionId : Bytes) : Prop :=
  ∃ req, HttpRequest.parse r.raw = .ok (true, req) ∧ adminPrefix <+: req.cleanPath ∧
    getSessionIdFromCookie req.text = .ok sessionId ∧ sessionId ≠ [] ∧ PassesBasicAuth r.plat req

/-- The request brings no session ID, and the server mints this one for it. -/
def Mints (s : Server) (r : Request) (sessionId : Bytes) : Prop :=
  (∃ req, HttpRequest.parse r.raw = .ok (true, req) ∧ getSessionIdFromCookie req.text = .ok []) ∧
    Event.mintSession sessionId ∈ (dispatch r.plat r.raw s).events

/-! ## Outcomes -/

/-- The outcome leaves the sessions as they were. -/
structure KeepsSessions (s : Server) (out : Outcome Server Event Exn Unit) : Prop where
  sessions : out.state.sessions = s.sessions
  mints : ∀ sessionId, Event.mintSession sessionId ∉ out.events

/-- Counting the request is nothing to the sessions. -/
theorem KeepsSessions.of_counted {s : Server} {out : Outcome Server Event Exn Unit}
    (h : KeepsSessions (counted s) out) : KeepsSessions s out := ⟨h.sessions, h.mints⟩

/-- The outcome stores one fresh session. -/
structure StoresFresh (s : Server) (sessionId : Bytes) (out : Outcome Server Event Exn Unit) :
    Prop where
  sessions : out.state.sessions = (setSessionData s sessionId defaultData).sessions
  mints : ∀ other, Event.mintSession other ∈ out.events ↔ other = sessionId

/-- The event mints no session. -/
def MintsNothing (e : Event) : Prop := ∀ sessionId, e ≠ .mintSession sessionId

/-- Handlers mint nothing. -/
theorem mints_nothing_of_handler {κ α : Type} {keep : Server → κ} {x : Handler α}
    (hx : Behaves HandlerEvent keep x) : Behaves MintsNothing keep x := by
  refine hx.weaken (fun e he sessionId => ?_) id
  rintro rfl
  exact he

/-- Closing the socket mints nothing. -/
theorem close_mints_nothing {κ : Type} {keep : Server → κ} :
    Behaves MintsNothing keep closeSocket :=
  .emit fun _ h => nomatch h

/-- A computation that mints nothing and keeps the store keeps the sessions. -/
theorem keeps_sessions_of_behaves {x : Handler Unit}
    (hx : Behaves MintsNothing Server.sessions x) (s : Server) : KeepsSessions s (x s) :=
  ⟨hx.state s, fun sessionId hmem => hx.events s _ hmem sessionId rfl⟩

/-- A plain handler followed by `close` keeps the sessions. -/
theorem keeps_sessions_after {x : Handler Unit} (hx : Behaves PlainEvent Server.sessions x)
    (s : Server) : KeepsSessions s ((x >>= fun _ => closeSocket) s) :=
  keeps_sessions_of_behaves
    (.bind (mints_nothing_of_handler (handler_of_plain hx)) fun _ => close_mints_nothing) s

/-- What comes before may keep the sessions and mint nothing. -/
theorem KeepsSessions.after {α : Type} {x : Handler α} {f : α → Handler Unit} {s : Server} {a : α}
    (hx : Behaves MintsNothing Server.sessions x) (ha : (x s).value = .ok a)
    (hf : ∀ middle, KeepsSessions middle (f a middle)) : KeepsSessions s ((x >>= f) s) := by
  obtain ⟨a', middle, first, hrun, hvalue, hmiddle, hfirst⟩ := hx.bind_run s f
  obtain rfl : a = a' := Except.ok.inj (ha.symm.trans hvalue)
  obtain ⟨hsessions, hmints⟩ := hf middle
  rw [hrun]
  refine ⟨hsessions.trans hmiddle, fun sessionId hmem => ?_⟩
  obtain hmem | hmem := List.mem_append.mp hmem
  · exact hfirst _ hmem sessionId rfl
  · exact hmints sessionId hmem

/-- What stores a fresh session still does so behind a computation that mints nothing and keeps the
sessions. -/
theorem StoresFresh.after {α : Type} {x : Handler α} {f : α → Handler Unit} {s : Server} {a : α}
    {sessionId : Bytes} (hx : Behaves MintsNothing Server.sessions x) (ha : (x s).value = .ok a)
    (hf : ∀ middle, StoresFresh middle sessionId (f a middle)) :
    StoresFresh s sessionId ((x >>= f) s) := by
  obtain ⟨a', middle, first, hrun, hvalue, hmiddle, hfirst⟩ := hx.bind_run s f
  obtain rfl : a = a' := Except.ok.inj (ha.symm.trans hvalue)
  obtain ⟨hsessions, hmints⟩ := hf middle
  rw [hrun]
  refine ⟨hsessions.trans (set_session_data_congr hmiddle ..), fun other => ?_⟩
  rw [List.mem_append, hmints]
  exact or_iff_right fun hmem => hfirst _ hmem other rfl

/-- Static files are served without touching the sessions. -/
theorem static_mints_nothing (plat : Platform) (req : HttpRequest) (cookie : Bytes) :
    Behaves MintsNothing Server.sessions (serveStatic plat req cookie >>= fun _ => closeSocket) :=
  .bind (mints_nothing_of_handler (serve_static_behaves req cookie)) fun _ => close_mints_nothing

/-- A visitor without ID is stored under a fresh one before the answer. -/
theorem serve_files_stores_fresh (plat : Platform) (req : HttpRequest) (s : Server) :
    StoresFresh s (generateSessionId plat) (serveFiles plat req [] s) := by
  have hmint : mintSession plat s = ⟨.ok (setCookieHeader (generateSessionId plat)),
    setSessionData s (generateSessionId plat) defaultData,
    [.mintSession (generateSessionId plat)]⟩ := rfl
  obtain ⟨hsessions, hmints⟩ := keeps_sessions_of_behaves
    (static_mints_nothing plat req (setCookieHeader (generateSessionId plat)))
    (setSessionData s (generateSessionId plat) defaultData)
  unfold serveFiles
  rw [if_pos rfl, bind_run_of_ok hmint]
  refine ⟨hsessions, fun other => ?_⟩
  rw [List.mem_append, List.mem_singleton, Event.mintSession.injEq]
  exact or_iff_left (hmints other)

/-- The end of `dispatch` keeps the sessions, or stores a fresh one for a visitor without ID. -/
theorem serve_visitor_sessions (plat : Platform) (req : HttpRequest) (sessionId : Bytes)
    (s : Server) : KeepsSessions s (serveVisitor plat req sessionId s) ∨
      (sessionId = [] ∧ ∃ fresh, StoresFresh s fresh (serveVisitor plat req sessionId s)) := by
  have hrules : Behaves MintsNothing Server.sessions (cgiDispatch plat req) :=
    mints_nothing_of_handler (handler_of_plain (cgi_dispatch_behaves (fun _ _ => rfl) req))
  obtain ⟨handled, hhandled⟩ := hrules.returns s
  cases handled with
  | true =>
      refine .inl (.after hrules hhandled fun middle => ?_)
      rw [if_pos rfl]
      exact keeps_sessions_of_behaves close_mints_nothing middle
  | false =>
      by_cases hid : sessionId = []
      · refine .inr ⟨hid, generateSessionId plat, .after hrules hhandled fun middle => ?_⟩
        rw [if_neg Bool.false_ne_true, hid]
        exact serve_files_stores_fresh plat req middle
      · refine .inl (.after hrules hhandled fun middle => ?_)
        rw [if_neg Bool.false_ne_true, serveFiles, if_neg hid]
        exact keeps_sessions_of_behaves (static_mints_nothing plat req []) middle

/-! ## One request -/

/-- What one request does to the sessions: nothing that a login would change, a login, or a fresh
session. -/
inductive SessionStep (s : Server) (r : Request) : Prop where
  | kept (hsessions : (serve s r).sessions = s.sessions)
      (hlogin : ∀ sessionId, LogsIn r sessionId → IsAuthenticated s sessionId)
      (hmints : ∀ sessionId, ¬ Mints s r sessionId)
  | login (sessionId) (hlogin : ∀ other, LogsIn r other ↔ other = sessionId)
      (hsessions : (serve s r).sessions = (setSessionData s sessionId authenticatedData).sessions)
      (hmints : ∀ sessionId, ¬ Mints s r sessionId)
  | fresh (sessionId) (hlogin : ∀ other, ¬ LogsIn r other)
      (hsessions : (serve s r).sessions = (setSessionData s sessionId defaultData).sessions)
      (hmints : ∀ other, Mints s r other ↔ other = sessionId)

/-- A login request names one session. -/
theorem Reaches.logs_in_iff {r : Request} {req : HttpRequest} {sessionId : Bytes}
    (h : Reaches r.raw req sessionId) (other : Bytes) : LogsIn r other ↔
      other = sessionId ∧ adminPrefix <+: req.cleanPath ∧ sessionId ≠ [] ∧
        PassesBasicAuth r.plat req := by
  constructor
  · intro hlogin
    obtain ⟨req', hparse, hpath, hcookie, hne, hpasses⟩ := hlogin
    obtain ⟨rfl, rfl⟩ := h.unique hparse hcookie
    exact ⟨rfl, hpath, hne, hpasses⟩
  · intro hlogin
    obtain ⟨rfl, hpath, hne, hpasses⟩ := hlogin
    exact ⟨req, h.parsed, hpath, h.cookie, hne, hpasses⟩

/-- A path of the admin area is guarded. -/
theorem guarded_of_admin {path : Bytes} (h : adminPrefix <+: path) : isGuarded path = true := by
  simp [isGuarded, h]

/-- A guarded path other than `/whoami` is in the admin area. -/
theorem admin_of_guarded {path : Bytes} (h : isGuarded path = true) (hne : path ≠ whoamiPath) :
    adminPrefix <+: path := by
  simpa [isGuarded, hne] using h

/-- `/whoami` is not in the admin area. -/
theorem whoami_not_admin : ¬ adminPrefix <+: whoamiPath := by decide

/-- A request that does not reach the session part logs nobody in. -/
theorem not_logs_in_of_not_reached {r : Request}
    (h : ∀ req, HttpRequest.parse r.raw = .ok (true, req) →
      ∃ handler, openRoutes.lookup req.cleanPath = some handler) (sessionId : Bytes) :
    ¬ LogsIn r sessionId := by
  intro hlogin
  obtain ⟨req, hparse, hpath, -⟩ := hlogin
  obtain ⟨handler, hroute⟩ := h req hparse
  simp [not_open_of_guarded (guarded_of_admin hpath)] at hroute

/-- An authorised request, which may have logged in, takes a session step when its handler keeps the
sessions. -/
theorem session_step_of_authorized {s s' : Server} {r : Request} {req : HttpRequest}
    {sessionId : Bytes} (hreach : Reaches r.raw req sessionId)
    (hguard : isGuarded req.cleanPath = true)
    (hauth : Authorized r.plat req sessionId (counted s) s')
    (hkeeps : KeepsSessions s' (dispatch r.plat r.raw s)) : SessionStep s r := by
  have hmints : ∀ other, ¬ Mints s r other := fun other h => hkeeps.mints other h.2
  cases hauth with
  | session hadmitted =>
      refine .kept hkeeps.sessions (fun other hlogin => ?_) hmints
      obtain ⟨rfl, -⟩ := (hreach.logs_in_iff other).mp hlogin
      simp only [isAdmitted, Bool.and_eq_true, beq_iff_eq] at hadmitted
      exact hadmitted.2
  | credentials hpasses hneither =>
      refine .kept hkeeps.sessions (fun other hlogin => ?_) hmints
      obtain ⟨-, hpath, hne, -⟩ := (hreach.logs_in_iff other).mp hlogin
      obtain hwhoami | hempty := hneither
      · exact absurd (hwhoami ▸ hpath) whoami_not_admin
      · exact absurd hempty hne
  | login hpasses hne hid =>
      refine .login sessionId (fun other => ?_) hkeeps.sessions hmints
      rw [hreach.logs_in_iff]
      exact and_iff_left ⟨admin_of_guarded hguard hne, hid, hpasses⟩

/-- A fresh session is stored for a request that logs nobody in. -/
theorem session_step_of_fresh {s s' : Server} {r : Request} {req : HttpRequest}
    {fresh : Bytes} (hreach : Reaches r.raw req []) (hs' : s'.sessions = s.sessions)
    (hstores : StoresFresh s' fresh (dispatch r.plat r.raw s)) : SessionStep s r := by
  refine .fresh fresh (fun other hlogin => ?_)
    (hstores.sessions.trans (set_session_data_congr hs' ..)) fun other => ?_
  · exact ((hreach.logs_in_iff other).mp hlogin).2.2.1 rfl
  · rw [← hstores.mints]
    exact and_iff_right ⟨req, hreach.parsed, hreach.cookie⟩

/-- A request that logs nobody in takes a session step when it keeps the sessions. -/
theorem session_step_of_kept {s : Server} {r : Request}
    (hlogin : ∀ sessionId, ¬ LogsIn r sessionId)
    (hkeeps : KeepsSessions s (dispatch r.plat r.raw s)) : SessionStep s r :=
  .kept hkeeps.sessions (fun sessionId h => absurd h (hlogin sessionId))
    fun sessionId h => hkeeps.mints sessionId h.2

/-- Every request takes one of the three steps. -/
theorem session_step (s : Server) (r : Request) : SessionStep s r := by
  have hrouted := dispatch_routed r.plat r.raw s
  generalize hout : dispatch r.plat r.raw s = out at hrouted
  cases hrouted with
  | overrun hoverruns =>
      refine session_step_of_kept (not_logs_in_of_not_reached fun req h => ?_) ?_
      · exact absurd (fits_of_parse h) hoverruns
      · rw [hout]
        exact ⟨rfl, fun _ => List.not_mem_nil⟩
  | rejected hparse =>
      refine session_step_of_kept (not_logs_in_of_not_reached fun req h => ?_) ?_
      · simp [hparse] at h
      · rw [hout]
        exact keeps_sessions_after (reject_request_behaves _) s
  | @openRoute req handler hparse hroute =>
      refine session_step_of_kept (not_logs_in_of_not_reached fun req' h => ?_) ?_
      · obtain rfl : req = req' := by simpa [hparse] using h
        exact ⟨handler, hroute⟩
      · rw [hout]
        exact (keeps_sessions_after (open_routes_behave hroute req) (counted s)).of_counted
  | thrown hreach hguard hadmitted htrunc =>
      -- the exception leaves the state as it was when the request was counted
      refine session_step_of_kept (fun sessionId h => ?_) ?_
      · exact ((hreach.logs_in_iff sessionId).mp h).2.2.2.not_truncated htrunc
      · rw [hout]
        exact ⟨rfl, fun _ => List.not_mem_nil⟩
  | refused hreach hguard hadmitted htrunc hpasses hplain =>
      refine session_step_of_kept (fun sessionId h => ?_) ?_
      · exact hpasses ((hreach.logs_in_iff sessionId).mp h).2.2.2
      · rw [hout]
        refine ⟨rfl, fun sessionId hmem => ?_⟩
        obtain hmem | hmem := List.mem_append.mp hmem
        · exact hplain _ hmem
        · cases List.mem_singleton.mp hmem
  | adminRoute hreach hguard hauth hroute =>
      refine session_step_of_authorized hreach hguard hauth ?_
      rw [hout]
      refine keeps_sessions_after (admin_routes_behave ?_ hroute hauth.not_truncated) _
      exact fun _ _ _ _ _ => rfl
  | @console req sessionId s' hreach hguard hauth hroute =>
      obtain hkeeps | ⟨rfl, fresh, hstores⟩ := serve_visitor_sessions r.plat req sessionId s'
      · exact session_step_of_authorized hreach hguard hauth (hout ▸ hkeeps)
      · refine session_step_of_fresh hreach ?_ (hout ▸ hstores)
        -- without an ID no session is marked
        cases hauth with
        | session _ | credentials _ _ => rfl
        | login _ _ hid => exact absurd rfl hid
  | @visitor req sessionId hreach hguard =>
      obtain hkeeps | ⟨rfl, fresh, hstores⟩ :=
        serve_visitor_sessions r.plat req sessionId (counted s)
      · -- a path that is not guarded is not in the admin area
        refine session_step_of_kept (fun other h => ?_) (hout ▸ hkeeps.of_counted)
        have hpath := ((hreach.logs_in_iff other).mp h).2.1
        exact absurd (hguard.symm.trans (guarded_of_admin hpath)) (by decide)
      · have hstores : StoresFresh (counted s) fresh (dispatch r.plat r.raw s) := hout ▸ hstores
        refine session_step_of_fresh hreach ?_ hstores
        rfl

end Dvws
