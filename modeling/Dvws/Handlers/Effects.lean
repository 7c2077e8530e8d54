import Dvws.Handlers.Cgi
import Dvws.Handlers.Deploy
import Dvws.Handlers.Echo
import Dvws.Handlers.LogViewer
import Dvws.Handlers.StaticFiles
import Dvws.Handlers.Status

/-!
# What each handler does to the outside

The events of a handler, for any predicate `emits` on events: it holds of all of them as soon as it
holds of those that the handler can cause. Everybody may send; what else a handler does is what its
lemma asks for.
-/

namespace Dvws

open Effect

variable {κ : Type} {keep : Server → κ} {plat : Platform} {emits : Event → Prop}

/-- What a rotation does to the log files. -/
def RotationCall : Event → Prop
  | .removeFile path => path = rotatedPath 3
  | .renameFile source target => (source, target) ∈
      [(rotatedPath 2, rotatedPath 3), (rotatedPath 1, rotatedPath 2), (logPath, rotatedPath 1)]
  | _ => False

/-- The event belongs to the access log, and touches no file but the log files. -/
def LogCall (e : Event) : Prop :=
  RotationCall e ∨ (∃ pieces, e = .appendLog pieces) ∨
    ∃ sink timestamp message, e = .enqueueLog sink timestamp message

/-- Rotation makes its own calls only. -/
theorem rotate_log_if_needed_emits (hrotation : ∀ e, RotationCall e → emits e) :
    Behaves emits keep (rotateLogIfNeeded plat) := by
  unfold rotateLogIfNeeded
  split
  · exact .pure ()
  · refine .ite (.pure ()) (.emitAll fun e he => hrotation e ?_)
    simp only [List.mem_cons, List.not_mem_nil, or_false] at he
    obtain rfl | rfl | rfl | rfl := he
    · rfl
    · exact List.mem_cons_self
    · exact List.mem_cons_of_mem _ List.mem_cons_self
    · exact List.mem_cons_of_mem _ (List.mem_cons_of_mem _ List.mem_cons_self)

/-- Logging writes to the log. -/
theorem log_request_response_emits (hlog : ∀ e, LogCall e → emits e) (request response : Bytes) :
    Behaves emits keep (logRequestResponse plat request response) := by
  refine .bind .get fun server => ?_
  cases server.sink with
  | some sink => exact .emit (hlog _ (.inr (.inr ⟨_, _, _, rfl⟩)))
  | none =>
      refine .bind (.lift (extract_query_parameters_returns request)) fun params => ?_
      refine .bind (rotate_log_if_needed_emits fun e he => hlog e (.inl he)) fun _ => ?_
      refine .ite ?_ (.pure ())
      refine .bind (.lift (extract_header_value_returns ..)) fun field => ?_
      exact .emit (hlog _ (.inr (.inl ⟨_, rfl⟩)))

section Sends

variable (hsend : ∀ origin data, emits (.send origin data))

include hsend

/-- A status response is sent. -/
theorem send_status_sends (origin : Origin) (statusCode contentType body extraHeaders : Bytes)
    (headOnly : Bool) : Behaves emits keep
      (sendStatus plat statusCode contentType origin body extraHeaders headOnly) :=
  send_status_emits (hsend ..) (hsend ..) headOnly

/-- A JSON response is sent. -/
theorem send_json_sends (body : Bytes) (headOnly : Bool) :
    Behaves emits keep (sendJson plat body headOnly) :=
  send_json_emits (hsend _) body headOnly

/-- An error page is sent. -/
theorem send_error_response_sends (statusCode : Nat) (statusText requestedPage : Bytes)
    (sendBody : Bool) : Behaves emits keep
      (sendErrorResponse plat statusCode statusText requestedPage sendBody) :=
  send_error_response_emits (fun _ => hsend ..) (hsend ..) sendBody

/-- The status document is sent. -/
theorem status_emits (req : HttpRequest) : Behaves emits keep (status plat req) :=
  .bind .get fun _ => send_status_sends hsend ..

/-- The echo page is sent. -/
theorem echo_request_emits (req : HttpRequest) : Behaves emits keep (echoRequest plat req) := by
  refine .bind (.lift (extract_query_parameters_returns _)) fun params => ?_
  refine .bind (.lift (Echo.header_rows_returns _ _)) fun headers => ?_
  exact send_status_sends hsend ..

/-- The log viewer runs a command for a valid level. -/
theorem handle_log_viewer_emits {request : Bytes} {params : Params}
    (hparams : extractQueryParameters request = .ok params)
    (hcommand : params.subscript (lit "level") ∈ validLevels → emits (.popen (cstr (logCommand plat
      (params.subscript (lit "level")) (params.subscript (lit "search")))))) :
    Behaves emits keep (handleLogViewer plat request) := by
  unfold handleLogViewer
  rw [hparams, lift_ok_bind]
  dsimp only
  by_cases hlevel : params.subscript (lit "level") ≠ [] ∧
      params.subscript (lit "level") ∉ [lit "error", lit "warning", lit "info"]
  · rw [if_pos hlevel]
    exact send_status_sends hsend ..
  · rw [if_neg hlevel]
    rw [not_and_or, not_not, not_not] at hlevel
    refine .bind (.emit (hcommand (List.mem_cons.mpr hlevel))) fun _ => ?_
    split
    · exact send_status_sends hsend ..
    · exact .ite (send_status_sends hsend ..) (send_status_sends hsend ..)

/-- The helper is staged, executed and removed at its staging path. -/
theorem handle_cgi_helper_emits (hlog : ∀ e, LogCall e → emits e)
    (hwrite : ∀ data, emits (.writeFile (stagingPath plat) data))
    (hmode : emits (.changeMode (stagingPath plat)))
    (hcommand : (helperFile plat).isSome = true → plat.canCreate (stagingPath plat) = true →
      emits (.popen (stagingPath plat)))
    (hremove : emits (.removeFile (stagingPath plat))) (request : Bytes) (sendBody : Bool) :
    Behaves emits keep (handleCgiHelper plat request sendBody) := by
  unfold handleCgiHelper
  cases hhelper : helperFile plat with
  | none =>
      refine .bind (send_status_sends hsend ..) fun _ => ?_
      exact log_request_response_emits hlog ..
  | some helper =>
      dsimp only
      split
      · next hcreate =>
        refine .bind (.emitAll fun e he => ?_) fun _ => ?_
        · simp only [List.mem_cons, List.not_mem_nil, or_false] at he
          obtain rfl | rfl | rfl := he
          · exact hwrite _
          · exact hmode
          · exact hcommand (by rw [hhelper]; rfl) hcreate
        · split
          · exact .emit hremove
          · refine .bind (log_request_response_emits hlog ..) fun _ => ?_
            refine .bind (send_behaves (hsend ..)) fun sent => ?_
            refine .bind (.ite ?_ (.pure ())) fun _ => .emit hremove
            exact send_pieces_behaves (hsend _) _
      · exact .pure ()

/-- A rule runs its string. -/
theorem execute_emits {executable : Bytes} (hcommand : emits (.popen (cstr executable))) :
    Behaves emits keep (execute plat executable) := by
  refine .bind (.emit hcommand) fun _ => ?_
  split
  · exact send_status_sends hsend ..
  · exact .ite (send_status_sends hsend ..) (send_status_sends hsend ..)

/-- The static files are sent and logged. -/
theorem serve_static_emits (hlog : ∀ e, LogCall e → emits e) (req : HttpRequest)
    (setCookieHeader : Bytes) : Behaves emits keep (serveStatic plat req setCookieHeader) := by
  have hlogs (request response : Bytes) :
      Behaves emits keep (logRequestResponse plat request response) :=
    log_request_response_emits hlog ..
  refine .ite (send_status_sends hsend ..) (.ite (send_status_sends hsend ..) ?_)
  refine .ite (send_status_sends hsend ..) ?_
  unfold StaticFiles.serveFile
  split
  · refine .ite (.bind (send_error_response_sends hsend ..) fun _ => hlogs ..) ?_
    refine .bind (hlogs ..) fun _ => .bind (send_behaves (hsend ..)) fun _ => ?_
    exact .ite (send_ignored_behaves (hsend ..)) (.pure ())
  · unfold StaticFiles.sendFile
    split
    · exact .bind (send_error_response_sends hsend ..) fun _ => hlogs ..
    · refine .bind (.lift (extract_header_value_returns ..)) fun ims => .ite ?_ ?_
      · exact .bind (hlogs ..) fun _ => send_ignored_behaves (hsend ..)
      · refine .bind (hlogs ..) fun _ => .bind (send_behaves (hsend ..)) fun _ => ?_
        exact .ite (send_pieces_behaves (hsend _) _) (.pure ())

/-! ## The admin area -/

/-- `system_status` decodes its parameter. -/
theorem system_status_emits (hdecode : ∀ capacity message, emits (.decodeStatus capacity message))
    (req : HttpRequest) : Behaves emits keep (systemStatus plat req) := by
  unfold systemStatus
  split
  · exact send_json_sends hsend ..
  · refine .ite (.bind (.emit (hdecode ..)) fun _ => ?_) (send_json_sends hsend ..)
    exact send_json_sends hsend ..

/-- `upload_file` receives a body. -/
theorem upload_file_receives (hreceive : ∀ capacity length, emits (.receive capacity length))
    (req : HttpRequest) : Behaves emits keep (uploadFile plat req) := by
  refine .bind (.lift (extract_header_value_returns ..)) fun contentLength => ?_
  refine .ite (send_json_sends hsend ..) ?_
  refine .bind (.lift (extract_header_value_returns ..)) fun filenameLength => ?_
  refine .ite (send_json_sends hsend ..) (.ite (.bind (.emit (hreceive ..)) fun _ => ?_) ?_)
  · exact send_json_sends hsend ..
  · exact .pure ()

/-- `add_rule` answers. -/
theorem add_rule_emits
    (hkeep : ∀ s rules types, keep { s with cgiRules := rules, routeTypes := types } = keep s)
    (req : HttpRequest) : Behaves emits keep (addRule plat req) := by
  refine .bind (.lift (extract_query_parameters_returns _)) fun params => ?_
  split
  · exact send_json_sends hsend ..
  · refine .bind (.modify fun s => hkeep s _ _) fun _ => .bind .get fun _ => ?_
    exact send_json_sends hsend ..

/-- `update_rule` answers. -/
theorem update_rule_emits (hkeep : ∀ s types, keep { s with routeTypes := types } = keep s)
    (req : HttpRequest) : Behaves emits keep (updateRule plat req) := by
  refine .bind (.lift (extract_query_parameters_returns _)) fun params => .bind .get fun _ => ?_
  refine .ite ?_ (send_json_sends hsend ..)
  split
  · exact send_json_sends hsend ..
  · exact .bind (.modify fun s => hkeep s _) fun _ => send_json_sends hsend ..

/-- `logging` replaces the sink. -/
theorem logging_emits
    (hkeep : ∀ s sink made, keep { s with sink := sink, sinksMade := made } = keep s)
    (hinstall : ∀ sink, emits (.installSink sink)) (hdelete : ∀ sink, emits (.deleteSink sink))
    (req : HttpRequest) : Behaves emits keep (logging plat req) := by
  have hsink (kind : SinkKind) : Behaves emits keep (installLogSink kind) := by
    refine .bind .get fun server => .bind (.modify fun s => hkeep s _ _) fun _ => ?_
    refine .bind (.emit (hinstall _)) fun _ => ?_
    split
    · exact .emit (hdelete _)
    · exact .pure ()
  refine .bind (.lift (extract_query_parameters_returns _)) fun params => ?_
  refine .ite (.bind (hsink _) fun _ => send_json_sends hsend ..) ?_
  refine .ite (.bind (hsink _) fun _ => send_json_sends hsend ..) ?_
  exact send_json_sends hsend ..

/-- `deploy_site` makes directories and writes files. -/
theorem deploy_site_emits (hdir : ∀ path, emits (.makeDir path))
    (hfile : ∀ path data, emits (.writeFile path data)) (req : HttpRequest) :
    Behaves emits keep (deploySite plat req) := by
  have hready := ensure_deploy_directory_calls hdir plat (deployDirectory plat)
  have hdone (entries : List ZipEntry) :=
    hready.deploy_entries hdir hfile plat (deployDirectory plat) entries
  refine .bind (.lift (extract_header_value_returns ..)) fun contentLength => ?_
  refine .ite (send_json_sends hsend ..) (.ite (send_json_sends hsend ..) ?_)
  split
  · exact send_json_sends hsend ..
  · refine .ite ?_ (send_json_sends hsend ..)
    dsimp only
    split
    · exact .bind (.emitAll hready) fun _ => send_json_sends hsend ..
    · exact .bind (.emitAll (hdone _)) fun _ => send_json_sends hsend ..

/-- `whoami` answers a request whose `Authorization` value is not truncated. -/
theorem whoami_emits {req : HttpRequest} {auth : Bytes}
    (hauth : header req.text (lit "Authorization") = .ok auth) (h : ¬ Truncated auth) :
    Behaves emits keep (whoami plat req) := by
  unfold whoami
  rw [hauth, lift_ok_bind]
  refine .bind (.lift (supplied_credentials_returns _ h)) fun credentials => ?_
  split
  · exact send_status_sends hsend ..
  · exact send_status_sends hsend ..

end Sends

end Dvws
