import Dvws.Router.Routed

/-!
# Closing the connection

The worker that runs `dispatch` owns the socket, and no scope guard closes it: every way out has a
`close` of its own, and a way out by an exception has none. There is exactly one such way. The
credentials are cut out of the `Authorization` value behind its sixth byte, which throws on a
nonempty value that is shorter; the value of a request is looked at when its path is guarded and
its session does not admit it.
-/

namespace Dvws

open Effect

/-- The computation has returned, and has closed the socket once. -/
structure ClosedOnce {α : Type} (out : Outcome Server Event Exn α) : Prop where
  returns : ∃ a, out.value = .ok a
  closes : out.events.count .close = 1

/-- The request makes `dispatch` leave by an exception. -/
def Leaks (s : Server) (raw : Bytes) : Prop :=
  ∃ req sessionId, HttpRequest.parse raw = .ok (true, req) ∧ isGuarded req.cleanPath = true ∧
    getSessionIdFromCookie req.text = .ok sessionId ∧ isAdmitted s req sessionId = false ∧
    HasTruncatedAuth req

/-- The target of a request that leaks fits the buffer. -/
theorem Leaks.fits {s : Server} {raw : Bytes} (h : Leaks s raw) : FitsCleanPath (cstr raw) := by
  obtain ⟨req, sessionId, hparse, -⟩ := h
  exact fits_of_parse hparse

section Rules

variable {α : Type}

/-- Closing the socket closes it once. -/
theorem closes_once_close (s : Server) : ClosedOnce (closeSocket s) := ⟨⟨(), rfl⟩, rfl⟩

/-- What comes before may do anything but close the socket or throw. -/
theorem closes_once_bind {x : Handler α} {f : α → Handler Unit}
    (hx : Behaves (· ≠ .close) (fun _ => ()) x) (hf : ∀ a s, ClosedOnce (f a s)) (s : Server) :
    ClosedOnce ((x >>= f) s) := by
  obtain ⟨a, middle, first, hrun, -, -, hfirst⟩ := hx.bind_run s f
  have hnone : first.count Event.close = 0 :=
    List.count_eq_zero.mpr fun hmem => hfirst _ hmem rfl
  obtain ⟨hreturns, hcloses⟩ := hf a middle
  constructor
  · rw [hrun]
    exact hreturns
  · rw [hrun, List.count_append, hnone, hcloses]

/-- Handlers leave the socket open. -/
theorem open_of_handler {x : Handler α} (hx : Behaves HandlerEvent (fun _ => ()) x) :
    Behaves (· ≠ .close) (fun _ => ()) x := by
  refine hx.weaken (fun e he => ?_) id
  rintro rfl
  exact he

/-- Plain procedures leave the socket open. -/
theorem open_of_plain {x : Handler α} (hx : Behaves PlainEvent (fun _ => ()) x) :
    Behaves (· ≠ .close) (fun _ => ()) x :=
  open_of_handler (handler_of_plain hx)

/-- A plain handler followed by `close` closes the socket once. -/
theorem closes_once_after {x : Handler Unit} (hx : Behaves PlainEvent (fun _ => ()) x)
    (s : Server) : ClosedOnce ((x >>= fun _ => closeSocket) s) :=
  closes_once_bind (open_of_plain hx) (fun _ => closes_once_close) s

/-- Minting a session leaves the socket open. -/
theorem mint_session_leaves_open {plat : Platform} :
    Behaves (· ≠ .close) (fun _ => ()) (mintSession plat) := by
  refine .bind (.emit (by simp)) fun _ => .bind (.modify fun _ => rfl) fun _ => ?_
  exact .pure _

/-- The end of `dispatch` closes the socket once. -/
theorem closes_once_visitor (plat : Platform) (req : HttpRequest) (sessionId : Bytes)
    (s : Server) : ClosedOnce (serveVisitor plat req sessionId s) := by
  have hrules : Behaves PlainEvent (fun _ => ()) (cgiDispatch plat req) :=
    cgi_dispatch_behaves (fun _ _ => rfl) req
  have hfiles : ∀ cookie, Behaves (· ≠ .close) (fun _ => ()) (serveStatic plat req cookie) :=
    fun cookie => open_of_handler (serve_static_behaves req cookie)
  refine closes_once_bind (open_of_plain hrules) (fun handled s => ?_) s
  unfold serveFiles
  split
  · exact closes_once_close s
  · split
    · refine closes_once_bind mint_session_leaves_open (fun cookie s => ?_) s
      exact closes_once_bind (hfiles cookie) (fun _ => closes_once_close) s
    · exact closes_once_bind (hfiles []) (fun _ => closes_once_close) s

end Rules

/-- A request reaches the session part in one way only. -/
theorem Reaches.leaks_iff {raw : Bytes} {req : HttpRequest} {sessionId : Bytes} {s : Server}
    (h : Reaches raw req sessionId) : Leaks s raw ↔
      isGuarded req.cleanPath = true ∧ isAdmitted s req sessionId = false ∧
        HasTruncatedAuth req := by
  constructor
  · intro hleaks
    obtain ⟨other, otherId, hparse, hguard, hcookie, hadmitted, htrunc⟩ := hleaks
    obtain ⟨rfl, rfl⟩ := h.unique hparse hcookie
    exact ⟨hguard, hadmitted, htrunc⟩
  · intro hleaks
    obtain ⟨hguard, hadmitted, htrunc⟩ := hleaks
    exact ⟨req, sessionId, h.parsed, hguard, h.cookie, hadmitted, htrunc⟩

/-- An authorised request does not make `dispatch` throw. -/
theorem Reaches.not_leaks_of_authorized {plat : Platform} {raw : Bytes} {req : HttpRequest}
    {sessionId : Bytes} {s s' : Server} (h : Reaches raw req sessionId)
    (hauth : Authorized plat req sessionId (counted s) s') : ¬ Leaks s raw := by
  rw [h.leaks_iff]
  intro hleaks
  obtain ⟨-, hadmitted, htrunc⟩ := hleaks
  cases hauth with
  | session hsession => exact absurd (hsession.symm.trans hadmitted) (by decide)
  | credentials hpasses _ => exact hpasses.not_truncated htrunc
  | login hpasses _ _ => exact hpasses.not_truncated htrunc

/-- Each way out returns after one `close`, or leaves without one: by an exception, or with the
process. -/
theorem Routed.closes {plat : Platform} {raw : Bytes} {s : Server}
    {out : Outcome Server Event Exn Unit} (h : Routed plat raw s out) :
    (FitsCleanPath (cstr raw) ∧ ¬ Leaks s raw ∧ ClosedOnce out) ∨
    (Leaks s raw ∧ out.value = .error .outOfRange ∧ out.events.count .close = 0) ∨
    (¬ FitsCleanPath (cstr raw) ∧ out.value = .error .overrun ∧ out.events.count .close = 0) := by
  cases h with
  | overrun hoverruns => exact .inr (.inr ⟨hoverruns, rfl, rfl⟩)
  | rejected hparse =>
      refine .inl ⟨fits_of_parse hparse, ?_, closes_once_after (reject_request_behaves _) s⟩
      intro hleaks
      obtain ⟨other, otherId, hother, -⟩ := hleaks
      simp [hparse] at hother
  | openRoute hparse hroute =>
      refine .inl ⟨fits_of_parse hparse, ?_, closes_once_after (open_routes_behave hroute _) _⟩
      intro hleaks
      obtain ⟨other, otherId, hother, hguard, -⟩ := hleaks
      obtain rfl : _ = other := by simpa [hparse] using hother
      simp [not_open_of_guarded hguard] at hroute
  | thrown hreach hguard hadmitted htrunc =>
      -- the one way out that no `close` is on
      exact .inr (.inl ⟨hreach.leaks_iff.mpr ⟨hguard, hadmitted, htrunc⟩, rfl, rfl⟩)
  | refused hreach hguard hadmitted htrunc hpasses hplain =>
      refine .inl ⟨fits_of_parse hreach.parsed, fun hleaks => ?_, ⟨(), rfl⟩, ?_⟩
      · exact htrunc (hreach.leaks_iff.mp hleaks).2.2
      have hnone := List.count_eq_zero.mpr fun hmem => hplain Event.close hmem
      rw [List.count_append, hnone]
      rfl
  | adminRoute hreach hguard hauth hroute =>
      refine .inl ⟨fits_of_parse hreach.parsed, hreach.not_leaks_of_authorized hauth, ?_⟩
      refine closes_once_after ?_ _
      exact admin_routes_behave (fun _ _ _ _ _ => rfl) hroute hauth.not_truncated
  | console hreach hguard hauth hroute =>
      exact .inl ⟨fits_of_parse hreach.parsed, hreach.not_leaks_of_authorized hauth,
        closes_once_visitor ..⟩
  | visitor hreach hguard =>
      refine .inl ⟨fits_of_parse hreach.parsed, fun hleaks => ?_, closes_once_visitor ..⟩
      exact absurd (hguard.symm.trans (hreach.leaks_iff.mp hleaks).1) (by decide)

/-- A one-letter credential on a guarded path. -/
def leakingRequest : Bytes := lit "GET /whoami HTTP/1.1\r\nAuthorization: x\r\n\r\n"

end Dvws
