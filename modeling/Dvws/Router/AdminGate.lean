import Dvws.Handlers.Revealed
import Dvws.Router.Configuration

/-!
# The gate before the admin directory

The router compares the path of the request with `"/admin/"` byte by byte; the static handler
normalises the path and serves what it then names. Every other spelling of a place below the admin
directory passes the router as the request of a visitor. `Exposed` is the condition under which a
visitor gets such a place, and the result says that these are all the requests that reveal
anything there without authorisation.
-/

namespace Dvws

open Effect Files StaticFiles

/-- The place of the admin directory in the document root. -/
def adminDirectory (plat : Platform) : Location :=
  normalize plat.cwd (cstr plat.serverDir ++ lit "/admin")

/-- The place is the admin directory or lies below it. -/
def InAdmin (plat : Platform) (loc : Location) : Prop := adminDirectory plat <+: loc

/-- `dispatch` answers with the contents of a file or a listing from inside the admin directory. -/
def RevealsAdmin (plat : Platform) (raw : Bytes) (s : Server) : Prop :=
  Emits (Reveals (InAdmin plat)) (dispatch plat raw) s

/-- The cookie header of the answer to a visitor. -/
def visitorCookie (plat : Platform) (sessionId : Bytes) : Bytes :=
  if sessionId = [] then setCookieHeader (generateSessionId plat) else []

/-- The request of a visitor for a place inside the admin directory. -/
structure Exposed (plat : Platform) (s : Server) (raw : Bytes) (req : HttpRequest)
    (sessionId : Bytes) : Prop where
  /-- the request is accepted and its path is no open route -/
  reaches : Reaches raw req sessionId
  /-- nor is it guarded -/
  unguarded : isGuarded req.cleanPath = false
  uncredentialed : ¬ PassesBasicAuth plat req
  unauthenticated : ¬ IsAuthenticated s sessionId
  /-- no rule serves it -/
  unruled : ¬ (lit "/cgi-bin/" <+: req.cleanPath ∧
    (servingRule s s.cgiRules req.cleanPath).isSome = true)
  /-- and what the static handler serves for it lies inside -/
  direct : ServesPath plat req
  inside : ∃ loc, InAdmin plat loc ∧
    Serves plat (fileRequest plat req (visitorCookie plat sessionId))
      ((namedPath plat req).take 511) loc

section Reveals

variable {p : Location → Prop} {plat : Platform}

/-- Closing the socket reveals nothing. -/
theorem close_reveals_nothing (s : Server) : ¬ Emits (Reveals p) closeSocket s := by
  rw [closeSocket, emits_emit]
  exact id

/-- A plain handler followed by `close` reveals nothing. -/
theorem closed_reveals_nothing {x : Handler Unit} (hx : Behaves PlainEvent id x) (s : Server) :
    ¬ Emits (Reveals p) (x >>= fun _ => closeSocket) s := by
  rw [reveals_after_plain hx]
  exact close_reveals_nothing s

/-- To a visitor, with or without a fresh session, the static files reveal what they serve. -/
theorem reveals_serve_files (req : HttpRequest) (sessionId : Bytes) (s : Server) :
    Emits (Reveals p) (serveFiles plat req sessionId) s ↔ ServesPath plat req ∧ ∃ loc, p loc ∧
      Serves plat (fileRequest plat req (visitorCookie plat sessionId))
        ((namedPath plat req).take 511) loc := by
  have hstatic (cookie : Bytes) (s : Server) :
      Emits (Reveals p) (serveStatic plat req cookie >>= fun _ => closeSocket) s ↔
        ServesPath plat req ∧ ∃ loc, p loc ∧
          Serves plat (fileRequest plat req cookie) ((namedPath plat req).take 511) loc := by
    have hbehaves : Behaves HandlerEvent id (serveStatic plat req cookie) :=
      serve_static_behaves req cookie
    rw [hbehaves.emits_bind_silent (fun _ => close_reveals_nothing), reveals_serve_static]
  unfold serveFiles visitorCookie
  by_cases hid : sessionId = []
  · have hmint : Behaves (fun e => ¬ Reveals p e) (fun _ => ()) (mintSession plat) :=
      .bind (.emit id) fun _ => .bind (.modify fun _ => rfl) fun _ => .pure _
    rw [if_pos hid, if_pos hid]
    exact hmint.emits_bind_iff rfl (hstatic _)
  · rw [if_neg hid, if_neg hid]
    exact hstatic [] s

/-- A visitor is served what the static files hold for the path, unless a rule serves it. -/
theorem reveals_serve_visitor (req : HttpRequest) (sessionId : Bytes) (s : Server) :
    Emits (Reveals p) (serveVisitor plat req sessionId) s ↔
      ¬ (lit "/cgi-bin/" <+: req.cleanPath ∧
        (servingRule s s.cgiRules req.cleanPath).isSome = true) ∧ ServesPath plat req ∧
      ∃ loc, p loc ∧ Serves plat (fileRequest plat req (visitorCookie plat sessionId))
        ((namedPath plat req).take 511) loc := by
  have hrules : Behaves (fun e => ¬ Reveals p e) (fun _ => ()) (cgiDispatch plat req) :=
    conceals_of_plain (cgi_dispatch_behaves (fun _ _ => rfl) req)
  obtain ⟨handled, hvalue, hhandled⟩ := cgi_dispatch_value plat req s
  rw [← hhandled]
  refine hrules.emits_bind_iff hvalue fun middle => ?_
  cases handled with
  | true =>
      rw [if_pos rfl]
      exact iff_of_false (close_reveals_nothing middle) fun h => h.1 rfl
  | false =>
      rw [if_neg Bool.false_ne_true, reveals_serve_files]
      exact (and_iff_right Bool.false_ne_true).symm

end Reveals

/-- Of the ways through `dispatch`, two may reveal something: that of an authorised request, and
that of a visitor. -/
theorem Routed.reveals {plat : Platform} {raw : Bytes} {s : Server} {p : Location → Prop}
    {out : Outcome Server Event Exn Unit} (h : Routed plat raw s out)
    (hreveals : ∃ e ∈ out.events, Reveals p e) :
    IsAuthorized s ⟨plat, raw⟩ ∨ ∃ req sessionId, Reaches raw req sessionId ∧
      isGuarded req.cleanPath = false ∧
      Emits (Reveals p) (serveVisitor plat req sessionId) (counted s) := by
  cases h with
  | overrun hoverruns =>
      obtain ⟨e, he, -⟩ := hreveals
      cases he
  | rejected hparse =>
      exact absurd hreveals (closed_reveals_nothing (reject_request_behaves _) s)
  | openRoute hparse hroute =>
      exact absurd hreveals (closed_reveals_nothing (open_routes_behave hroute _) (counted s))
  | thrown hreach hguard hadmitted htrunc =>
      obtain ⟨e, he, -⟩ := hreveals
      cases he
  | refused hreach hguard hadmitted htrunc hpasses hplain =>
      obtain ⟨e, he, hp⟩ := hreveals
      obtain he | he := List.mem_append.mp he
      · exact absurd hp (not_reveals_of_plain (hplain e he))
      · obtain rfl := List.mem_singleton.mp he
        exact hp.elim
  | adminRoute hreach hguard hauth hroute => exact .inl (hreach.is_authorized hauth)
  | console hreach hguard hauth hroute => exact .inl (hreach.is_authorized hauth)
  -- the path is not spelled as the gate expects
  | visitor hreach hguard => exact .inr ⟨_, _, hreach, hguard, hreveals⟩

/-- The request of an exposed visitor is not authorised. -/
theorem Exposed.not_authorized {plat : Platform} {s : Server} {raw : Bytes} {req : HttpRequest}
    {sessionId : Bytes} (h : Exposed plat s raw req sessionId) :
    ¬ IsAuthorized s ⟨plat, raw⟩ := by
  intro hauthorized
  obtain ⟨other, hparse, hauth⟩ := hauthorized
  obtain rfl : req = other := by simpa [h.reaches.parsed] using hparse
  obtain hpasses | ⟨otherId, hcookie, hauthenticated⟩ := hauth
  · exact h.uncredentialed hpasses
  · obtain ⟨-, rfl⟩ := h.reaches.unique hparse hcookie
    exact h.unauthenticated hauthenticated

/-- An exposed request reveals something inside the admin directory. -/
theorem Exposed.reveals_admin {plat : Platform} {s : Server} {raw : Bytes} {req : HttpRequest}
    {sessionId : Bytes} (h : Exposed plat s raw req sessionId) : RevealsAdmin plat raw s := by
  have hvisitor : Emits (Reveals (InAdmin plat)) (serveVisitor plat req sessionId) (counted s) :=
    (reveals_serve_visitor ..).mpr ⟨h.unruled, h.direct, h.inside⟩
  unfold RevealsAdmin Emits
  rw [h.reaches.dispatch_eq, h.unguarded]
  exact hvisitor

/-- Content inside the admin directory goes to authorised requests only, but for the requests of
exposed visitors. -/
theorem admin_content_is_guarded_iff (plat : Platform) (raw : Bytes) (s : Server) :
    (RevealsAdmin plat raw s → IsAuthorized s ⟨plat, raw⟩) ↔
      ¬ ∃ req sessionId, Exposed plat s raw req sessionId := by
  constructor
  · rintro hguarded ⟨req, sessionId, hexposed⟩
    exact hexposed.not_authorized (hguarded hexposed.reveals_admin)
  · intro hnone hreveals
    obtain hauth | ⟨req, sessionId, hreach, hguard, hvisitor⟩ :=
      (dispatch_routed plat raw s).reveals hreveals
    · exact hauth
    · by_contra hauth
      obtain ⟨hunruled, hdirect, hinside⟩ := (reveals_serve_visitor ..).mp hvisitor
      refine hnone ⟨req, sessionId, hreach, hguard, fun hpasses => ?_,
        fun hauthenticated => ?_, hunruled, hdirect, hinside⟩
      · exact hauth ⟨req, hreach.parsed, .inl hpasses⟩
      · exact hauth ⟨req, hreach.parsed, .inr ⟨sessionId, hreach.cookie, hauthenticated⟩⟩

/-- A document root with an admin page. -/
def adminSite : FileTree
  | [] => some (.dir [lit "srv"] 0 4096 true)
  | [a] => if a = lit "srv" then some (.dir [lit "admin"] 0 4096 true) else none
  | [a, b] =>
      if a = lit "srv" ∧ b = lit "admin" then some (.dir [lit "index.html"] 0 4096 true) else none
  | [a, b, c] =>
      if a = lit "srv" ∧ b = lit "admin" ∧ c = lit "index.html" then
        some (.file (lit "secret") 0 true)
      else none
  | _ => none

/-- Two slashes more than the gate expects. -/
def slashedRequest : Bytes := lit "GET ///admin/index.html HTTP/1.1\r\n\r\n"

/-- `parse` accepts `slashedRequest` and leaves two slashes in front of its path. -/
theorem parse_slashed_request : HttpRequest.parse slashedRequest =
    .ok (true, ⟨slashedRequest, lit "GET", lit "//admin/index.html", []⟩) := rfl

/-- A target with three slashes in front reveals the admin page to anyone. -/
theorem admin_content_not_guarded_from_slashes :
    ¬ (RevealsAdmin { Platform.bare with files := adminSite } slashedRequest Server.init →
      IsAuthorized Server.init ⟨{ Platform.bare with files := adminSite }, slashedRequest⟩) := by
  intro hguarded
  have hreveals : RevealsAdmin { Platform.bare with files := adminSite } slashedRequest
      Server.init := by
    refine ⟨.send (.file [lit "srv", lit "admin", lit "index.html"]) (lit "secret"), ?_, ?_⟩
    · decide +kernel
    · show [lit "srv", lit "admin"] <+: [lit "srv", lit "admin", lit "index.html"]
      decide
  obtain ⟨req, hparse, hauth⟩ := hguarded hreveals
  rw [parse_slashed_request] at hparse
  cases hparse
  obtain hpasses | ⟨sessionId, -, hauthenticated⟩ := hauth
  · exact absurd (hpasses Server.init) (by decide +kernel)
  · simp [IsAuthenticated, getSessionData, Server.init] at hauthenticated
    exact absurd hauthenticated (by decide)

end Dvws
