import Dvws.Handlers.Answered
import Dvws.Router.Closing
import Dvws.Router.HeadRequests
import Dvws.Sessions.Identifier

/-!
# What a client receives

A client that asks for a body and takes all it is sent receives one well-formed response, and
nothing behind it: whatever route the request takes, and whatever the request puts into the head.
The exceptions receive nothing at all (`Unanswered`): the request that makes `dispatch` throw, the
upload whose allocation fails, and the helper that cannot be staged or started.
-/

namespace Dvws

open Effect Files StaticFiles Wire

/-- The request gets no answer. -/
inductive Unanswered (plat : Platform) (raw : Bytes) (s : Server) : Prop where
  | overrun (h : ¬ FitsCleanPath (cstr raw))
  | leaks (h : Leaks s raw)
  | upload {req sessionId s'} (hreach : Reaches raw req sessionId)
      (hauth : Authorized plat req sessionId (counted s) s')
      (hpath : req.cleanPath = lit "/admin/upload_file") (hdrops : DropsUpload plat req)
  | helper {req} (hparse : HttpRequest.parse raw = .ok (true, req))
      (hpath : req.cleanPath = lit "/cgi-helper") (hdrops : DropsHelper plat)

variable {plat : Platform} {raw : Bytes} {s : Server} {req : HttpRequest}

/-- An upload that is dropped sends nothing. -/
theorem upload_file_drops (h : DropsUpload plat req) (s : Server) :
    uploadFile plat req s = ⟨.ok (), s, []⟩ := by
  obtain ⟨contentLength, filenameLength, hcontent, hlength, hfilename, hname, hmalloc⟩ := h
  unfold uploadFile
  rw [hcontent, lift_ok_bind, if_neg hlength, hfilename, lift_ok_bind, if_neg hname,
    hmalloc]
  rfl

/-- A helper that is not started sends nothing. -/
theorem handle_cgi_helper_drops (h : DropsHelper plat) (request : Bytes) (sendBody : Bool) :
    Behaves Unsent (fun _ => ()) (handleCgiHelper plat request sendBody) := by
  obtain ⟨helper, hhelper, hfails⟩ := h
  unfold handleCgiHelper
  rw [hhelper]
  dsimp only
  split
  · next hcreate =>
    refine .bind (.emitAll fun e he => ?_) fun _ => ?_
    · simp only [List.mem_cons, List.not_mem_nil, or_false] at he
      obtain rfl | rfl | rfl := he <;> rfl
    · obtain hcannot | hnone := hfails
      · rw [hcreate] at hcannot
        cases hcannot
      · rw [hnone]
        exact .emit rfl
  · exact .pure ()

/-- Who sends a request that gets no answer receives nothing. -/
theorem Unanswered.received_eq_nil (h : Unanswered plat raw s) :
    received (dispatch plat raw s).events = [] := by
  cases h with
  | overrun hoverruns =>
      rw [dispatch_of_overrun hoverruns]
      rfl
  | leaks hleaks =>
      obtain ⟨req, sessionId, hparse, hguard, hcookie, hadmitted, htrunc⟩ := hleaks
      have hreach : Reaches raw req sessionId := ⟨hparse, not_open_of_guarded hguard, hcookie⟩
      obtain ⟨s', hauth, -⟩ | ⟨-, -, hrun⟩ | ⟨-, hnot, -⟩ :=
        authorize_cases plat req sessionId (counted s)
      · exact absurd (hreach.leaks_iff.mpr ⟨hguard, hadmitted, htrunc⟩)
          (hreach.not_leaks_of_authorized hauth)
      · rw [hreach.dispatch_eq, if_pos hguard]
        unfold serveGuarded
        rw [bind_run_of_error hrun]
        rfl
      · exact absurd htrunc hnot
  | @upload req sessionId s' hreach hauth hpath hdrops =>
      have hguard : isGuarded req.cleanPath = true := by
        rw [hpath]
        decide
      have hroute : adminRoutes.lookup req.cleanPath = some uploadFile := by
        rw [hpath]
        rfl
      obtain ⟨s'', -, hrun⟩ | ⟨hadmitted, htrunc, -⟩ | ⟨hadmitted, hnot, hpasses, -⟩ :=
        authorize_cases plat req sessionId (counted s)
      · rw [hreach.dispatch_eq, if_pos hguard]
        unfold serveGuarded
        rw [bind_run_of_ok hrun, if_pos rfl, hroute]
        dsimp only
        rw [bind_run_of_ok (upload_file_drops hdrops s'')]
        rfl
      -- an authorised request is not one of those that throw
      · have hnot : ¬ Leaks s raw := hreach.not_leaks_of_authorized hauth
        exact absurd (hreach.leaks_iff.mpr ⟨hguard, hadmitted, htrunc⟩) hnot
      · cases hauth with
        | session hsession => exact absurd (hsession.symm.trans hadmitted) (by decide)
        | credentials hother => exact absurd hother hpasses
        | login hother => exact absurd hother hpasses
  | @helper req hparse hpath hdrops =>
      have hroute : openRoutes.lookup req.cleanPath = some fun plat req =>
          handleCgiHelper plat req.text (req.method != lit "HEAD") := by
        rw [hpath]
        rfl
      have hquiet : Behaves Unsent (fun _ => ())
          (handleCgiHelper plat req.text (req.method != lit "HEAD") >>= fun _ => closeSocket) :=
        .bind (handle_cgi_helper_drops hdrops _ _) fun _ => .emit rfl
      rw [dispatch_of_parsed hparse, hroute]
      exact Dvws.received_eq_nil (hquiet.events _)

/-! ## A response is received -/

section Responses

variable (hplat : plat.Attentive)

include hplat

omit hplat in
/-- The cookie of a minted session is a field. -/
theorem is_fields_set_cookie (hids : plat.Generates) :
    IsFields (setCookieHeader (generateSessionId plat)) := by
  have hname : lit "Set-Cookie: session_id=" =
      lit "Set-Cookie" ++ lit ": " ++ lit "session_id=" := by decide
  have hend : lit "; HttpOnly; Path=/\r\n" = lit "; HttpOnly; Path=/" ++ crlf ++ [] := by decide
  have hsplit : setCookieHeader (generateSessionId plat) = lit "Set-Cookie" ++ lit ": " ++
      (lit "session_id=" ++ generateSessionId plat ++ lit "; HttpOnly; Path=/") ++ crlf ++ [] := by
    rw [setCookieHeader, hname, hend]
    simp only [List.append_assoc]
  have hclean : 13 ∉ lit "session_id=" ++ generateSessionId plat ++
      lit "; HttpOnly; Path=/" := by
    have hfront : (13 : UInt8) ∉ lit "session_id=" := by decide
    have hback : (13 : UInt8) ∉ lit "; HttpOnly; Path=/" := by decide
    have hid : 13 ∉ generateSessionId plat := fun hmem =>
      absurd (hids.word 13 hmem) (by decide)
    simp only [List.mem_append, not_or]
    exact ⟨⟨hfront, hid⟩, hback⟩
  rw [hsplit]
  exact is_fields_nil.cons (by decide) hclean

omit hplat in
/-- A visitor of the static files receives what they send, with or without a cookie. -/
theorem serve_files_receives {good : Bytes → Prop} (hids : plat.Generates)
    (hgood : ∀ cookie, IsFields cookie → ∀ s, Receives good (serveStatic plat req cookie) s)
    (sessionId : Bytes) (s : Server) : Receives good (serveFiles plat req sessionId) s := by
  have hclose : Behaves Unsent (fun _ => ()) closeSocket := .emit rfl
  have hmint : mintSession plat s = ⟨.ok (setCookieHeader (generateSessionId plat)),
      setSessionData s (generateSessionId plat) defaultData,
      [.mintSession (generateSessionId plat)]⟩ := rfl
  unfold serveFiles
  refine .ite (fun _ => ?_) fun _ => ?_
  · refine .after_run hmint (fun e he => ?_) ?_
    · obtain rfl := List.mem_singleton.mp he
      rfl
    · exact Receives.before (hgood _ (is_fields_set_cookie hids) _) fun _ => hclose
  · exact Receives.before (hgood _ is_fields_nil _) fun _ => hclose

omit hplat in
/-- A visitor whom no rule serves receives what `serve_static` sends, with the cookie. -/
theorem serve_visitor_receives {good : Bytes → Prop} (hids : plat.Generates)
    (hgood : ∀ cookie, IsFields cookie → ∀ s, Receives good (serveStatic plat req cookie) s)
    (hrule : ¬ RunsRule s req) (sessionId : Bytes) :
    Receives good (serveVisitor plat req sessionId) s := by
  obtain ⟨hvalue, hquiet⟩ := cgi_dispatch_silent plat hrule
  have hevents : shown sentData (cgiDispatch plat req s).events = [] := hquiet.none_of_first
  unfold serveVisitor
  cases hrun : cgiDispatch plat req s with
  | mk value middle first =>
      rw [hrun] at hvalue hevents
      cases hvalue
      refine .after_run hrun (List.filterMap_eq_nil_iff.mp hevents) ?_
      exact serve_files_receives hids hgood sessionId middle

end Responses

/-- A response that is received is read as such, with nothing left over. -/
theorem Responds.read (h : Responds plat (dispatch plat raw) s) :
    ∃ response, IsAnswer plat response ∧
      readResponse (received (dispatch plat raw s).events) = some (response, []) := by
  obtain ⟨response, hanswer, hreceived⟩ := h
  exact ⟨response, hanswer, by rw [hreceived, read_response_render hanswer.wellFormed]⟩

end Dvws
