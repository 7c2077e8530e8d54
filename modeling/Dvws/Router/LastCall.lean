import Dvws.Router.Closing

/-!
# The last call

`dispatch` closes the socket when it is done with it: every way out either has its `close` behind
everything else, or has none.
-/

namespace Dvws

open Effect

/-- The computation closes the socket, and does nothing behind that. -/
def EndsClosed {α : Type} (out : Outcome Server Event Exn α) : Prop :=
  ∃ front, out.events = front ++ [.close] ∧ Event.close ∉ front

section Rules

variable {α : Type}

/-- Closing the socket ends closed. -/
theorem ends_closed_close (s : Server) : EndsClosed (closeSocket s) :=
  ⟨[], rfl, List.not_mem_nil⟩

/-- What comes before may do anything but close the socket or throw. -/
theorem ends_closed_bind {x : Handler α} {f : α → Handler Unit}
    (hx : Behaves (· ≠ .close) (fun _ => ()) x) (hf : ∀ a s, EndsClosed (f a s)) (s : Server) :
    EndsClosed ((x >>= f) s) := by
  obtain ⟨a, middle, first, hrun, -, -, hfirst⟩ := hx.bind_run s f
  obtain ⟨front, hevents, hopen⟩ := hf a middle
  refine ⟨first ++ front, ?_, ?_⟩
  · rw [hrun, hevents, List.append_assoc]
  · rw [List.mem_append, not_or]
    exact ⟨fun hmem => hfirst _ hmem rfl, hopen⟩

/-- A plain handler followed by `close` ends closed. -/
theorem ends_closed_after {x : Handler Unit} (hx : Behaves PlainEvent (fun _ => ()) x)
    (s : Server) : EndsClosed ((x >>= fun _ => closeSocket) s) :=
  ends_closed_bind (open_of_plain hx) (fun _ => ends_closed_close) s

/-- The end of `dispatch` ends closed. -/
theorem ends_closed_visitor (plat : Platform) (req : HttpRequest) (sessionId : Bytes)
    (s : Server) : EndsClosed (serveVisitor plat req sessionId s) := by
  have hrules : Behaves PlainEvent (fun _ => ()) (cgiDispatch plat req) :=
    cgi_dispatch_behaves (fun _ _ => rfl) req
  have hfiles : ∀ cookie, Behaves (· ≠ .close) (fun _ => ()) (serveStatic plat req cookie) :=
    fun cookie => open_of_handler (serve_static_behaves req cookie)
  refine ends_closed_bind (open_of_plain hrules) (fun handled s => ?_) s
  unfold serveFiles
  split
  · exact ends_closed_close s
  · split
    · refine ends_closed_bind mint_session_leaves_open (fun cookie s => ?_) s
      exact ends_closed_bind (hfiles cookie) (fun _ => ends_closed_close) s
    · exact ends_closed_bind (hfiles []) (fun _ => ends_closed_close) s

end Rules

/-- A computation that ends closed closes the socket once. -/
theorem EndsClosed.count_close {α : Type} {out : Outcome Server Event Exn α}
    (h : EndsClosed out) : out.events.count .close = 1 := by
  obtain ⟨front, hevents, hopen⟩ := h
  rw [hevents, List.count_append, List.count_eq_zero.mpr hopen]
  rfl

/-- Each way out ends closed, but the one by an exception. -/
theorem Routed.ends_closed {plat : Platform} {raw : Bytes} {s : Server}
    {out : Outcome Server Event Exn Unit} (h : Routed plat raw s out) :
    EndsClosed out ∨ out.events = [] := by
  cases h with
  | overrun hoverruns => exact .inr rfl
  | rejected hparse => exact .inl (ends_closed_after (reject_request_behaves _) s)
  | openRoute hparse hroute => exact .inl (ends_closed_after (open_routes_behave hroute _) _)
  | thrown hreach hguard hadmitted htrunc => exact .inr rfl
  | refused hreach hguard hadmitted htrunc hpasses hplain =>
      exact .inl ⟨_, rfl, fun hmem => hplain Event.close hmem⟩
  | adminRoute hreach hguard hauth hroute =>
      refine .inl (ends_closed_after ?_ _)
      exact admin_routes_behave (fun _ _ _ _ _ => rfl) hroute hauth.not_truncated
  | console hreach hguard hauth hroute => exact .inl (ends_closed_visitor ..)
  | visitor hreach hguard => exact .inl (ends_closed_visitor ..)

/-- A request that does not make `dispatch` throw, or overrun its buffer, has the socket closed
behind everything else, and for one that does nothing is done at all. -/
theorem dispatch_ends (plat : Platform) (raw : Bytes) (s : Server) :
    (FitsCleanPath (cstr raw) ∧ ¬ Leaks s raw ∧ EndsClosed (dispatch plat raw s)) ∨
      ((¬ FitsCleanPath (cstr raw) ∨ Leaks s raw) ∧ (dispatch plat raw s).events = []) := by
  have hrouted := dispatch_routed plat raw s
  have hnone : (dispatch plat raw s).events.count .close = 0 →
      (dispatch plat raw s).events = [] := by
    intro hcloses
    refine hrouted.ends_closed.resolve_left fun hends => ?_
    exact absurd (hcloses.symm.trans hends.count_close) Nat.zero_ne_one
  obtain ⟨hfits, hleaks, hreturns, hcloses⟩ | ⟨hleaks, -, hcloses⟩ | ⟨hoverruns, -, hcloses⟩ :=
    hrouted.closes
  · refine .inl ⟨hfits, hleaks, hrouted.ends_closed.resolve_right fun hempty => ?_⟩
    rw [hempty] at hcloses
    cases hcloses
  · exact .inr ⟨.inr hleaks, hnone hcloses⟩
  · exact .inr ⟨.inl hoverruns, hnone hcloses⟩

end Dvws
