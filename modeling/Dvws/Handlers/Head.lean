import Dvws.Effect.Twin
import Dvws.Handlers.Cgi
import Dvws.Handlers.Deploy
import Dvws.Handlers.Echo
import Dvws.Handlers.StaticFiles
import Dvws.Handlers.Status
import Dvws.Http.Twin

/-!
# Handlers on a GET request and its twin

Each handler has a way of its own to tell a HEAD request. `Matches x y s` says that what a client
is sent by `y` is the header that it is sent first by `x`, for a client that takes all that it is
sent. It is shown of all handlers but the echo page, which reports the method in its body, and the
log viewer, which does not look at the method when its command cannot be run.
-/

namespace Dvws

open Effect Files StaticFiles

/-- What the client is sent. -/
def sentData : Event → Option Bytes
  | .send _ data => some data
  | _ => none

/-- A response header, from the status line to the blank line. -/
def IsHeader (data : Bytes) : Prop := lit "HTTP/1.1 " <+: data ∧ lit "\r\n\r\n" <:+ data

/-- The surroundings of the twin: behind its text, which is one byte longer, is what is behind that
of the request. -/
def Platform.forTwin (plat : Platform) : Platform :=
  { plat with beyond := fun i => plat.beyond (i - 1) }

/-- The second answers with the header that the first answers with. -/
abbrev Matches {α : Type} (x y : Handler α) (s : Server) : Prop := Answers sentData IsHeader x y s

/-- Neither answers. -/
abbrev Silent {α : Type} (x y : Handler α) (s : Server) : Prop := Quiet sentData x y s

/-- Header lines that follow a status line and end with the standard headers are a header. -/
theorem is_header_of_standard {front : Bytes} (plat : Platform) (h : lit "HTTP/1.1 " <+: front) :
    IsHeader (front ++ standardHeaders plat) := by
  constructor
  · exact h.trans (List.prefix_append _ _)
  · unfold standardHeaders
    exact ⟨front ++ (lit "Server: " ++ serverBanner ++ crlf ++ lit "Date: " ++ httpDateNow plat ++
      crlf ++ lit "Connection: close"), by simp [crlf, show lit "Connection: close\r\n" =
        lit "Connection: close" ++ lit "\r\n" from rfl, show lit "\r\n\r\n" =
        lit "\r\n" ++ lit "\r\n" from rfl]⟩

/-- The header that `send_error_response` sends. -/
def errorHeader (plat : Platform) (statusCode : Nat) (statusText : Bytes) (length : Nat) : Bytes :=
  lit "HTTP/1.1 " ++ toDecimal statusCode ++ lit " " ++ statusText ++ crlf ++
    lit "Content-Type: text/html; charset=utf-8\r\n" ++
    lit "Content-Length: " ++ toDecimal length ++ crlf ++ standardHeaders plat

/-- The header before the output of the helper. -/
def helperHeader (plat : Platform) : Bytes :=
  lit "HTTP/1.1 200 OK\r\n" ++ lit "Content-Type: text/plain; charset=utf-8\r\n" ++
    standardHeaders plat

/-- How `handle_cgi_helper` ends: the output is sent, and the staged file removed. -/
def sendHelperOutput (plat : Platform) (path output : Bytes) (sendBody : Bool) : Handler Unit := do
  let sent ← send plat .server (helperHeader plat)
  streamOutput plat path output (sent && sendBody)
  emit (.removeFile path)

/-- How a listing and a file are sent: the body after the header, if it is wanted and the header was
taken. -/
def sendWithBody (plat : Platform) (header : Bytes) (body : Handler Unit) (headOnly : Bool) :
    Handler Unit := do
  let sent ← send plat .server header
  if sent && !headOnly then body else pure ()

section Answers

variable {plat : Platform} {s : Server} {origin : Origin}

/-- A client that takes what it is sent. -/
def Platform.Attentive (plat : Platform) : Prop := ∀ data, plat.sendOk data = true

variable (hplat : plat.Attentive)

include hplat

/-- A client that takes what it is sent takes every send. -/
theorem send_run (origin : Origin) (data : Bytes) (s : Server) :
    send plat origin data s = ⟨.ok true, s, [.send origin data]⟩ := by
  unfold send
  rw [if_pos (hplat data)]
  rfl

/-- A send whose result is ignored is taken, too. -/
theorem send_ignored_run (origin : Origin) (data : Bytes) (s : Server) :
    sendIgnored plat origin data s = ⟨.ok (), s, [.send origin data]⟩ := by
  unfold sendIgnored
  rw [bind_run_of_ok (send_run hplat origin data s)]
  rfl

omit hplat in
/-- A computation that sends a header first matches one that sends this header alone. -/
theorem matches_of_header {x y : Handler Unit} {header : Bytes} {events silent : List Event}
    {value : Except Exn Unit} {final : Server} (hheader : IsHeader header)
    (hx : x s = ⟨value, final, .send .server header :: events⟩)
    (hy : y s = ⟨value, final, .send .server header :: silent⟩)
    (hsilent : ∀ e ∈ silent, sentData e = none) : Matches x y s := by
  have hnone : silent.filterMap sentData = [] := List.filterMap_eq_nil_iff.mpr hsilent
  constructor
  · rw [hx, hy]
  · rw [hx, hy]
  · rw [hx, hy]
    show header :: silent.filterMap sentData = [header]
    rw [hnone]
  · rw [hx]
    intro data hdata
    obtain rfl := Option.some.inj hdata
    exact hheader

omit hplat in
/-- `send_status` writes a header in front of the body. -/
theorem status_header_is_header (plat : Platform) (statusCode contentType : Bytes) (length : Nat)
    (extraHeaders : Bytes) :
    IsHeader (statusHeader plat statusCode contentType length extraHeaders) :=
  is_header_of_standard plat ⟨_, by simp only [List.append_assoc]; rfl⟩

/-- To a HEAD request `send_status` sends the header alone. -/
theorem send_status_run_head (statusCode contentType : Bytes) (origin : Origin)
    (body extraHeaders : Bytes) (s : Server) :
    sendStatus plat statusCode contentType origin body extraHeaders true s =
      ⟨.ok (), s, [.send .server
        (statusHeader plat statusCode contentType body.length extraHeaders)]⟩ := by
  unfold sendStatus
  rw [bind_run_of_ok (send_ignored_run hplat _ _ s), if_neg (fun h => nomatch h.1)]
  rfl

/-- To any other request `send_status` sends the header and the body. -/
theorem send_status_run_get (statusCode contentType : Bytes) (origin : Origin)
    {body : Bytes} (hbody : body ≠ []) (extraHeaders : Bytes) (s : Server) :
    sendStatus plat statusCode contentType origin body extraHeaders false s =
      ⟨.ok (), s, [.send .server
        (statusHeader plat statusCode contentType body.length extraHeaders),
        .send origin body]⟩ := by
  unfold sendStatus
  rw [bind_run_of_ok (send_ignored_run hplat _ _ s), if_pos ⟨rfl, hbody⟩,
    send_ignored_run hplat]
  rfl

/-- `send_status` sends the same header with the body and without. -/
theorem send_status_matches (statusCode contentType : Bytes) (origin : Origin)
    (body extraHeaders : Bytes) (s : Server) :
    Matches (sendStatus plat statusCode contentType origin body extraHeaders false)
      (sendStatus plat statusCode contentType origin body extraHeaders true) s := by
  have hheader := status_header_is_header plat statusCode contentType body.length extraHeaders
  have hhead := send_status_run_head hplat statusCode contentType origin body extraHeaders s
  by_cases hbody : body = []
  · subst hbody
    exact matches_of_header hheader hhead hhead (List.forall_mem_nil _)
  · exact matches_of_header hheader
      (send_status_run_get hplat statusCode contentType origin hbody extraHeaders s) hhead
      (List.forall_mem_nil _)

omit hplat in
/-- `send_error_response` writes a header in front of the page. -/
theorem error_header_is_header (statusCode : Nat) (statusText : Bytes) (length : Nat) :
    IsHeader (errorHeader plat statusCode statusText length) :=
  is_header_of_standard plat ⟨_, by simp only [List.append_assoc]; rfl⟩

/-- `send_error_response` sends the same header with the page and without. -/
theorem send_error_response_matches (statusCode : Nat) (statusText requestedPage : Bytes)
    (s : Server) :
    Matches (sendErrorResponse plat statusCode statusText requestedPage true)
      (sendErrorResponse plat statusCode statusText requestedPage false) s := by
  let body := errorPage plat statusCode statusText (lit "Requested page: " ++ requestedPage)
  have hget : sendErrorResponse plat statusCode statusText requestedPage true s =
      ⟨.ok (), s, [.send .server (errorHeader plat statusCode statusText body.length),
        .send .server body]⟩ := by
    unfold sendErrorResponse
    rw [bind_run_of_ok (send_run hplat _ _ s), Bool.and_self, if_pos rfl, send_ignored_run hplat]
    rfl
  have hhead : sendErrorResponse plat statusCode statusText requestedPage false s =
      ⟨.ok (), s, [.send .server (errorHeader plat statusCode statusText body.length)]⟩ := by
    unfold sendErrorResponse
    rw [bind_run_of_ok (send_run hplat _ _ s), Bool.and_false, if_neg Bool.false_ne_true]
    rfl
  exact matches_of_header (error_header_is_header statusCode statusText body.length) hget hhead
    (List.forall_mem_nil _)

/-- Pieces are sent one after another to a client that takes them. -/
theorem send_pieces_run (origin : Origin) (pieces : List Bytes) (s : Server) :
    sendPieces plat origin pieces s = ⟨.ok (), s, pieces.map (.send origin)⟩ := by
  induction pieces with
  | nil => rfl
  | cons piece pieces ih =>
      unfold sendPieces
      rw [bind_run_of_ok (send_run hplat origin piece s), if_pos rfl, ih]
      rfl

/-- A header with a body that is sent only to a GET request is the same header to its twin. -/
theorem header_then_body_matches {header : Bytes} {body twinBody : Handler Unit}
    {events : List Event} (hheader : IsHeader header) (hbody : body s = ⟨.ok (), s, events⟩) :
    Matches (sendWithBody plat header body false) (sendWithBody plat header twinBody true) s := by
  have hget : sendWithBody plat header body false s =
      ⟨.ok (), s, .send .server header :: events⟩ := by
    unfold sendWithBody
    rw [bind_run_of_ok (send_run hplat ..), Bool.not_false, Bool.and_self, if_pos rfl, hbody]
    rfl
  have hhead : sendWithBody plat header twinBody true s = ⟨.ok (), s, [.send .server header]⟩ := by
    unfold sendWithBody
    rw [bind_run_of_ok (send_run hplat ..)]
    rfl
  exact matches_of_header hheader hget hhead (List.forall_mem_nil _)

/-- The output of the helper is sent behind the same header as none. -/
theorem send_helper_output_matches (path output : Bytes) (s : Server) :
    Matches (sendHelperOutput plat path output true)
      (sendHelperOutput plat.forTwin path output false) s := by
  have hheader : IsHeader (helperHeader plat) := is_header_of_standard plat (by decide)
  have hget : sendHelperOutput plat path output true s = ⟨.ok (), s,
      .send .server (helperHeader plat) ::
        ((chunks output).map (.send (.command path)) ++ [.removeFile path])⟩ := by
    unfold sendHelperOutput streamOutput
    rw [bind_run_of_ok (send_run hplat ..), Bool.and_self, if_pos rfl,
      bind_run_of_ok (send_pieces_run hplat ..)]
    rfl
  have htwin : plat.forTwin.Attentive := hplat
  have hhead : sendHelperOutput plat.forTwin path output false s = ⟨.ok (), s,
      [.send .server (helperHeader plat), .removeFile path]⟩ := by
    unfold sendHelperOutput
    rw [bind_run_of_ok (send_run htwin ..)]
    rfl
  refine matches_of_header hheader hget hhead ?_
  intro e he
  obtain rfl := List.mem_singleton.mp he
  rfl

/-- The prompt for credentials is a header. -/
theorem send_basic_auth_prompt_matches (s : Server) :
    Matches (sendBasicAuthPrompt plat) (sendBasicAuthPrompt plat) s := by
  have hrun := send_ignored_run hplat .server (lit "HTTP/1.1 401 Unauthorized\r\n" ++
    lit "WWW-Authenticate: Basic realm=\"Restricted\"\r\n" ++ lit "Content-Length: 0\r\n" ++
    standardHeaders plat) s
  refine matches_of_header (is_header_of_standard plat ?_) hrun hrun (List.forall_mem_nil _)
  exact ⟨_, by simp only [List.append_assoc]; rfl⟩

end Answers

/-! ## The open routes -/

section Handlers

variable {plat : Platform} {req twin : HttpRequest} (hplat : plat.Attentive)
  (htwins : Twins req twin)

/-- A GET request is not answered like a HEAD request. -/
theorem Twins.method_flag (htwins : Twins req twin) : (req.method == lit "HEAD") = false := by
  rw [htwins.method]
  rfl

/-- The twin of a GET request is answered like a HEAD request. -/
theorem Twins.twin_flag (htwins : Twins req twin) : (twin.method == lit "HEAD") = true := by
  rw [htwins.twinMethod]
  rfl

/-- Logging a request and its twin sends nothing. -/
theorem log_silent (request twinRequest response : Bytes) (s : Server) :
    Silent (logRequestResponse plat request response)
      (logRequestResponse plat twinRequest response) s := by
  have hsilent (e : Event) (he : LogEvent e) : sentData e = none := by
    cases e with
    | send _ _ => exact he.elim
    | _ => rfl
  have hlogs (text : Bytes) :
      Behaves (fun e => sentData e = none) id (logRequestResponse plat text response) := by
    have hlogging : Behaves LogEvent id (logRequestResponse plat text response) :=
      log_request_response_logs text response
    exact hlogging.weaken hsilent id
  exact quiet_of_behaves (hlogs request) (hlogs twinRequest) s

include hplat htwins

/-- `send_json` sends the same header with the body and without. -/
theorem send_json_matches (body : Bytes) (s : Server) :
    Matches (sendJson plat body (req.method == lit "HEAD"))
      (sendJson plat body (twin.method == lit "HEAD")) s := by
  rw [htwins.method_flag, htwins.twin_flag]
  exact send_status_matches hplat ..

/-- `status` sends the twin the same header. -/
theorem status_matches (s : Server) : Matches (status plat req) (status plat twin) s := by
  unfold status
  rw [htwins.method_flag, htwins.twin_flag]
  exact (quiet_get s).then_answers fun _ _ _ _ => send_status_matches hplat ..

/-- The log viewer runs its command, and `popen` fails. -/
def LogCommandFails (plat : Platform) (request : Bytes) : Prop :=
  ∃ params, extractQueryParameters request = .ok params ∧
    (params.subscript (lit "level") = [] ∨
      params.subscript (lit "level") ∈ [lit "error", lit "warning", lit "info"]) ∧
    plat.popen (cstr (logCommand plat (params.subscript (lit "level"))
      (params.subscript (lit "search")))) = none

/-- `handle_cgi_helper` sends the twin the same header. -/
theorem handle_cgi_helper_matches (s : Server) :
    Matches (handleCgiHelper plat req.text (req.method != lit "HEAD"))
      (handleCgiHelper plat.forTwin twin.text (twin.method != lit "HEAD")) s := by
  unfold handleCgiHelper bne
  rw [htwins.method_flag, htwins.twin_flag]
  have hhelper : helperFile plat.forTwin = helperFile plat := rfl
  rw [hhelper]
  cases helperFile plat with
  | none =>
      refine (send_status_matches hplat ..).then_quiet fun _ middle _ _ => ?_
      exact log_silent ..
  | some helper =>
      refine .ite (fun _ => ?_) fun _ => (quiet_pure () s).answers
      refine (quiet_emitAll ?_ s).then_answers fun _ middle _ _ => ?_
      · intro e he
        simp only [List.mem_cons, List.not_mem_nil, or_false] at he
        obtain rfl | rfl | rfl := he <;> rfl
      have hpopen : plat.forTwin.popen (stagingPath plat.forTwin) =
          plat.popen (stagingPath plat) := rfl
      rw [hpopen]
      cases plat.popen (stagingPath plat) with
      -- without a pipe neither request is answered
      | none => exact (quiet_emit rfl middle).answers
      | some output =>
          refine (log_silent ..).then_answers fun _ middle _ _ => ?_
          exact send_helper_output_matches hplat ..

omit hplat in
/-- The log viewer tells a HEAD request by its text. -/
theorem head_prefix : (lit "HEAD ").isPrefixOf req.text = false ∧
    (lit "HEAD ").isPrefixOf twin.text = true := by
  obtain ⟨rest, hraw, htwin⟩ := htwins.text
  rw [hraw, htwin]
  exact ⟨rfl, List.isPrefixOf_iff_prefix.mpr (List.prefix_append _ _)⟩

/-- `handle_log_viewer` sends the twin the same header, unless its command fails. -/
theorem handle_log_viewer_matches (hlogs : ¬ LogCommandFails plat req.text) (s : Server) :
    Matches (handleLogViewer plat req.text) (handleLogViewer plat twin.text) s := by
  obtain ⟨params, hparams⟩ := extract_query_parameters_returns req.text
  obtain ⟨hget, hhead⟩ := head_prefix htwins
  unfold handleLogViewer
  rw [htwins.parameters_eq, hparams, hget, hhead]
  refine (quiet_lift _ s).then_answers fun found middle hfound _ => ?_
  obtain rfl : params = found := Except.ok.inj hfound
  refine .ite (fun _ => send_status_matches hplat ..) fun hlevel => ?_
  refine (quiet_emit rfl middle).then_answers fun _ _ _ _ => ?_
  cases hpopen : plat.popen (cstr (logCommand plat (params.subscript (lit "level"))
      (params.subscript (lit "search")))) with
  -- this branch leaves the flag out
  | none =>
      refine absurd ⟨params, hparams, ?_, hpopen⟩ hlogs
      rw [not_and_or, not_not, not_not] at hlevel
      exact hlevel
  | some output =>
      exact .ite (fun _ => send_status_matches hplat ..) fun _ => send_status_matches hplat ..

/-! ## What deviates -/

omit hplat in
/-- The echo page lists the same headers for both. -/
theorem header_rows_twin {names : List Bytes}
    (hnames : ∀ name ∈ names, 32 ∉ name ++ lit ":" ∧ ¬ name ++ lit ":" <:+: lit "GET " ∧
      ¬ name ++ lit ":" <:+: lit "HEAD ") :
    Echo.headerRows twin.text names = Echo.headerRows req.text names := by
  induction names with
  | nil => rfl
  | cons name names ih =>
      obtain ⟨hspace, hget, hhead⟩ := hnames name List.mem_cons_self
      unfold Echo.headerRows header
      rw [htwins.header_eq _ hspace hget hhead,
        ih fun other hother => hnames other (List.mem_cons_of_mem _ hother)]

omit hplat in
/-- The echo pages differ in the method that they report, and so in length. -/
theorem echo_request_twin (plat : Platform) (hpath : twin.cleanPath = req.cleanPath) :
    ∃ page twinPage,
    echoRequest plat req = sendStatus plat (lit "200 OK") htmlType .server page [] false ∧
      echoRequest plat twin = sendStatus plat (lit "200 OK") htmlType .server twinPage [] true ∧
      twinPage.length = page.length + 1 := by
  obtain ⟨params, hparams⟩ := extract_query_parameters_returns req.text
  obtain ⟨headers, hheaders⟩ := Echo.header_rows_returns req.text Echo.echoHeaders
  have hrows : Echo.headerRows twin.text Echo.echoHeaders = .ok headers :=
    (header_rows_twin htwins (by decide)).trans hheaders
  have hget : Echo.htmlEscape (lit "GET") = lit "GET" := by decide
  have hhead : Echo.htmlEscape (lit "HEAD") = lit "HEAD" := by decide
  -- the pages are what the handler builds, and are read off the two equations
  refine ⟨?page, ?twinPage, ?request, ?twin, ?length⟩
  case request =>
    unfold echoRequest
    rw [hparams, hheaders, htwins.method_flag, htwins.method, hget]
    rfl
  case twin =>
    unfold echoRequest
    rw [htwins.parameters_eq, hparams, hrows, htwins.twin_flag, htwins.twinMethod, hhead, hpath,
      htwins.query]
    rfl
  case length =>
    simp only [Echo.row, List.length_append]
    have hthree : (lit "GET").length = 3 := rfl
    have hfour : (lit "HEAD").length = 4 := rfl
    omega

omit htwins in
/-- `send_status` without the flag of a HEAD request sends the body in a second piece. -/
theorem sends_twice_of_status (statusCode contentType : Bytes) (origin : Origin) {body : Bytes}
    (hbody : body ≠ []) (extraHeaders : Bytes) (s : Server) :
    (shown sentData
      (sendStatus plat statusCode contentType origin body extraHeaders false s).events).length =
        2 := by
  rw [send_status_run_get hplat _ _ _ hbody]
  rfl

omit htwins in
/-- A log viewer whose command fails sends a body behind its header. -/
theorem sends_twice_of_logs {request : Bytes} (hlogs : LogCommandFails plat request) (s : Server) :
    (shown sentData (handleLogViewer plat request s).events).length = 2 := by
  obtain ⟨params, hparams, hlevel, hpopen⟩ := hlogs
  have haccepted : ¬ (params.subscript (lit "level") ≠ [] ∧
      params.subscript (lit "level") ∉ [lit "error", lit "warning", lit "info"]) := by
    rw [not_and_or, not_not, not_not]
    exact hlevel
  unfold handleLogViewer
  rw [hparams, lift_ok_bind]
  dsimp only
  rw [if_neg haccepted, shown_bind (emit_run _ s), hpopen]
  exact sends_twice_of_status hplat _ _ _ (by decide) _ s

omit htwins in
/-- An executed rule sends a body behind its header. -/
theorem sends_twice_of_execute (executable : Bytes) (s : Server) :
    (shown sentData (execute plat executable s).events).length = 2 := by
  unfold execute
  rw [shown_bind (emit_run _ s)]
  cases plat.popen (cstr executable) with
  | none => exact sends_twice_of_status hplat _ _ _ (by decide) _ s
  | some output =>
      by_cases hempty : readPipe output = []
      · dsimp only
        rw [if_pos hempty]
        exact sends_twice_of_status hplat _ _ _ (by decide) _ s
      · dsimp only
        rw [if_neg hempty]
        exact sends_twice_of_status hplat _ _ _ hempty _ s

/-! ## The admin routes -/

/-- `send_error` sends the twin the same header. -/
theorem send_error_matches (message : Bytes) (s : Server) :
    Matches (sendError plat req message) (sendError plat twin message) s :=
  send_json_matches hplat htwins _ s

/-- `send_success` sends the twin the same header. -/
theorem send_success_matches (message : Bytes) (s : Server) :
    Matches (sendSuccess plat req message) (sendSuccess plat twin message) s :=
  send_json_matches hplat htwins _ s

omit hplat htwins in
/-- Behind their method tokens, a request and its twin have the same in memory. -/
theorem request_memory_twin (plat : Platform) (rest : Bytes) (i : Nat) :
    (requestMemory plat.forTwin (headRequest rest)).drop (i + 5) =
      (requestMemory plat (getRequest rest)).drop (i + 4) := by
  obtain ⟨tail, hget, hhead⟩ : ∃ tail, terminated (getRequest rest) = getRequest tail ∧
      terminated (headRequest rest) = headRequest tail := by
    unfold terminated getRequest headRequest
    by_cases hzero : 0 ∈ rest
    · refine ⟨rest, if_pos ?_, if_pos ?_⟩
      · exact List.mem_append_right _ hzero
      · exact List.mem_append_right _ hzero
    · refine ⟨rest ++ [0], ?_, ?_⟩
      · rw [if_neg (by simp [hzero]; decide), List.append_assoc]
      · rw [if_neg (by simp [hzero]; decide), List.append_assoc]
  have hlength : (headRequest tail).length = (getRequest tail).length + 1 := by
    rw [headRequest, getRequest, List.length_append, List.length_append, Nat.add_right_comm]
    rfl
  have hbehind : ((List.range plat.stackBehind).map fun k =>
        plat.forTwin.beyond ((headRequest tail).length + k)) =
      (List.range plat.stackBehind).map fun k => plat.beyond ((getRequest tail).length + k) := by
    refine List.map_congr_left fun k _ => ?_
    show plat.beyond ((headRequest tail).length + k - 1) = _
    rw [hlength]
    congr 1
    omega
  have hmemory : requestMemory plat.forTwin (headRequest rest) =
      headRequest (tail ++ (List.range plat.stackBehind).map fun k =>
        plat.beyond ((getRequest tail).length + k)) := by
    rw [requestMemory, hhead]
    refine (congrArg (headRequest tail ++ ·) hbehind).trans ?_
    rw [headRequest, headRequest, List.append_assoc]
  have htext : requestMemory plat (getRequest rest) =
      getRequest (tail ++ (List.range plat.stackBehind).map fun k =>
        plat.beyond ((getRequest tail).length + k)) := by
    rw [requestMemory, hget]
    exact List.append_assoc ..
  rw [hmemory, htext]
  exact drop_head_request _ i

/-- `system_status` sends the twin the same header. -/
theorem system_status_matches (s : Server) :
    Matches (systemStatus plat req) (systemStatus plat.forTwin twin) s := by
  obtain ⟨rest, hraw, htwin⟩ := htwins.raw
  obtain ⟨hget, hhead⟩ := find_in_twins (lit "status=") rest (by decide) (by decide) (by decide)
  unfold systemStatus HttpRequest.text
  rw [hraw, htwin, hget, hhead]
  cases Text.find (lit "status=") (cstr rest) with
  | none => exact send_error_matches hplat htwins _ s
  | some pos =>
      have hparam : (requestMemory plat.forTwin (headRequest rest)).drop (pos + 5 + 7) =
          (requestMemory plat (getRequest rest)).drop (pos + 4 + 7) := by
        rw [Nat.add_right_comm, request_memory_twin, Nat.add_right_comm]
      dsimp only [Option.map_some]
      rw [hparam]
      refine .ite (fun _ => ?_) fun _ => send_error_matches hplat htwins _ s
      exact (quiet_emit rfl s).then_answers fun _ middle _ _ =>
        send_success_matches hplat htwins _ middle

/-- `upload_file` sends the twin the same header. -/
theorem upload_file_matches (s : Server) :
    Matches (uploadFile plat req) (uploadFile plat twin) s := by
  unfold uploadFile header
  rw [htwins.header_eq (lit "Content-Length" ++ lit ":") (by decide) (by decide) (by decide),
    htwins.header_eq (lit "X-Filename-Length" ++ lit ":") (by decide) (by decide) (by decide)]
  refine (quiet_lift _ s).then_answers fun length middle _ _ => ?_
  refine .ite (fun _ => send_error_matches hplat htwins _ middle) fun _ => ?_
  refine (quiet_lift _ middle).then_answers fun nameLength middle _ _ => ?_
  refine .ite (fun _ => send_error_matches hplat htwins _ middle) fun _ => ?_
  -- a failed allocation is not answered
  refine .ite (fun _ => ?_) fun _ => (quiet_pure () middle).answers
  exact (quiet_emit rfl middle).then_answers fun _ middle _ _ =>
    send_success_matches hplat htwins _ middle

/-- `add_rule` sends the twin the same header. -/
theorem add_rule_matches (s : Server) : Matches (addRule plat req) (addRule plat twin) s := by
  unfold addRule
  rw [htwins.parameters_eq]
  refine (quiet_lift _ s).then_answers fun params middle _ _ => ?_
  cases requestedRoute plat params with
  | none => exact send_error_matches hplat htwins _ middle
  | some rule =>
      refine (quiet_modify _ middle).then_answers fun _ middle _ _ => ?_
      exact (quiet_get middle).then_answers fun _ middle _ _ =>
        send_json_matches hplat htwins _ middle

/-- `update_rule` sends the twin the same header. -/
theorem update_rule_matches (s : Server) :
    Matches (updateRule plat req) (updateRule plat twin) s := by
  unfold updateRule
  rw [htwins.parameters_eq]
  refine (quiet_lift _ s).then_answers fun params middle _ _ => ?_
  refine (quiet_get middle).then_answers fun server middle _ _ => ?_
  refine .ite (fun _ => ?_) fun _ => send_error_matches hplat htwins _ middle
  cases requestedType params with
  | none => exact send_error_matches hplat htwins _ middle
  | some newType =>
      exact (quiet_modify _ middle).then_answers fun _ middle _ _ =>
        send_success_matches hplat htwins _ middle

omit hplat htwins in
/-- Installing a sink sends neither the client nor its twin anything. -/
theorem install_log_sink_silent (kind : SinkKind) (s : Server) :
    Silent (installLogSink kind) (installLogSink kind) s := by
  refine (quiet_get s).bind fun server middle _ _ => ?_
  refine (quiet_modify _ middle).bind fun _ middle _ _ => ?_
  refine (quiet_emit rfl middle).bind fun _ middle _ _ => ?_
  cases server.sink with
  | none => exact quiet_pure () middle
  | some old => exact quiet_emit rfl middle

/-- `logging` sends the twin the same header. -/
theorem logging_matches (s : Server) : Matches (logging plat req) (logging plat twin) s := by
  unfold logging
  rw [htwins.parameters_eq]
  refine (quiet_lift _ s).then_answers fun params middle _ _ => ?_
  refine .ite (fun _ => ?_) fun _ => .ite (fun _ => ?_) fun _ => ?_
  · exact (install_log_sink_silent .file middle).then_answers fun _ middle _ _ =>
      send_success_matches hplat htwins _ middle
  · exact (install_log_sink_silent .syslog middle).then_answers fun _ middle _ _ =>
      send_success_matches hplat htwins _ middle
  · exact send_error_matches hplat htwins _ middle

/-- `whoami` sends the twin the same header. -/
theorem whoami_matches (s : Server) : Matches (whoami plat req) (whoami plat twin) s := by
  unfold whoami header
  rw [htwins.header_eq (lit "Authorization" ++ lit ":") (by decide) (by decide) (by decide),
    htwins.method_flag, htwins.twin_flag]
  refine (quiet_lift _ s).then_answers fun auth middle _ _ => ?_
  refine (quiet_lift _ middle).then_answers fun credentials middle _ _ => ?_
  cases credentials with
  | none => exact send_status_matches hplat ..
  | some pair => exact send_status_matches hplat ..

omit hplat htwins in
/-- From where the rest begins, the same memory is read for a request and its twin. -/
theorem read_memory_twin (plat : Platform) (rest : Bytes) (pos length : Nat) :
    readMemory plat.forTwin (headRequest rest) (pos + 5) length =
      readMemory plat (getRequest rest) (pos + 4) length := by
  refine List.map_congr_left fun i _ => ?_
  have hhead : pos + 5 + i = pos + i + 5 := Nat.add_right_comm pos 5 i
  have hget : pos + 4 + i = pos + i + 4 := Nat.add_right_comm pos 4 i
  rw [hhead, hget]
  rfl

/-- `deploy_site` sends the twin the same header. -/
theorem deploy_site_matches (s : Server) :
    Matches (deploySite plat req) (deploySite plat.forTwin twin) s := by
  have hdir (path : Bytes) : sentData (.makeDir path) = none := rfl
  have hready : Extraction.Calls (fun e => sentData e = none)
      (ensureDeployDirectory plat (deployDirectory plat) ⟨plat.files, 0, []⟩) :=
    ensure_deploy_directory_calls hdir plat _
  have hdone (entries : List ZipEntry) := Extraction.Calls.deploy_entries hdir (fun _ _ => rfl)
    hready plat (deployDirectory plat) entries
  have hlength := htwins.header_eq (lit "Content-Length" ++ lit ":") (by decide) (by decide)
    (by decide)
  obtain ⟨rest, hraw, htwin⟩ := htwins.raw
  obtain ⟨hget, hhead⟩ := find_in_twins (lit "\r\n\r\n") rest (by decide) (by decide) (by decide)
  unfold deploySite header
  rw [hlength]
  unfold HttpRequest.text
  rw [hraw, htwin, hget, hhead]
  refine (quiet_lift _ s).then_answers fun length middle _ _ => ?_
  refine .ite (fun _ => send_error_matches hplat htwins _ middle) fun _ => ?_
  refine .ite (fun _ => send_error_matches hplat htwins _ middle) fun _ => ?_
  cases Text.find (lit "\r\n\r\n") (cstr rest) with
  | none => exact send_error_matches hplat htwins _ middle
  | some pos =>
      have hdata := read_memory_twin plat rest (pos + 4) (strtoul length)
      dsimp only [Option.map_some]
      rw [Nat.add_right_comm pos 5 4, Nat.add_right_comm pos 4 4, hdata]
      refine .ite (fun _ => ?_) fun _ => send_error_matches hplat htwins _ middle
      have hreader : plat.forTwin.zipReader = plat.zipReader := rfl
      rw [hreader]
      cases plat.zipReader (readMemory plat (getRequest rest) (pos + 4 + 4) (strtoul length)) with
      | none =>
          exact (quiet_emitAll hready middle).then_answers fun _ middle _ _ =>
            send_error_matches hplat htwins _ middle
      | some entries =>
          exact (quiet_emitAll (hdone entries) middle).then_answers fun _ middle _ _ =>
            send_success_matches hplat htwins _ middle

/-! ## Static files -/

omit hplat in
/-- A request and its twin name the same file. -/
theorem joined_path_twin : joinedPath plat twin.cleanPath = joinedPath plat req.cleanPath := by
  have hroot : joinedPath plat (lit "/") = joinedPath plat [] := by
    simp [joinedPath, show lit "/" = [47] from rfl]
  exact htwins.path_congr (joinedPath plat) hroot

omit hplat htwins in
/-- The document root is looked up with its slash. -/
theorem root_lacks_no_slash :
    lacksSlash plat (resolvedFilePath plat (joinedPath plat [])) = false := by
  have hjoined : (joinedPath plat []).getLast? = some 47 := by simp [joinedPath]
  have hresolved : (resolvedFilePath plat (joinedPath plat [])).getLast? = some 47 := by
    rw [resolved_file_path_eq]
    by_cases hslash : (render (normalize plat.cwd (joinedPath plat []))).getLast? = some 47
    · rw [if_neg (fun h => h.2 hslash), List.append_nil]
      exact hslash
    · rw [if_pos ⟨keeps_slash_of_slash hjoined, hslash⟩, List.getLast?_concat]
  simp [lacksSlash, hresolved]

/-- The arguments that `serve_static` calls `serve_file` with. -/
def fileRequest (filePath setCookieHeader : Bytes) (req : HttpRequest) : FileRequest :=
  ⟨filePath, req.cleanPath, req.text, setCookieHeader, req.method == lit "HEAD"⟩

omit hplat in
/-- A directory is listed in the same way for both. -/
theorem listing_body_twin (filePath cookie path : Bytes) :
    listingBody plat (fileRequest filePath cookie twin) path =
      listingBody plat (fileRequest filePath cookie req) path :=
  htwins.path_congr (fun cleanPath => autoindexPage plat path
    (if cleanPath ≠ [] then cleanPath else lit "/")) rfl

/-- A listing is sent behind the header that the twin is sent. -/
theorem send_listing_matches (filePath cookie path : Bytes) (loc : Location) (s : Server) :
    Matches (sendListing plat (fileRequest filePath cookie req) path loc)
      (sendListing plat (fileRequest filePath cookie twin) path loc) s := by
  unfold sendListing
  rw [listing_body_twin htwins]
  unfold fileRequest
  dsimp only
  rw [htwins.method_flag, htwins.twin_flag]
  refine .ite (fun _ => ?_) fun _ => ?_
  · refine (send_error_response_matches hplat ..).then_quiet fun _ middle _ _ => ?_
    exact log_silent ..
  · refine (log_silent ..).then_answers fun _ middle _ _ => ?_
    refine header_then_body_matches hplat ?_ (send_ignored_run hplat ..)
    exact is_header_of_standard plat ⟨_, by simp only [List.append_assoc]; rfl⟩

/-- A file is sent behind the header that the twin is sent, or both are told that it has not
changed. -/
theorem send_file_matches (filePath cookie path : Bytes) (s : Server) :
    Matches (sendFile plat (fileRequest filePath cookie req) path)
      (sendFile plat.forTwin (fileRequest filePath cookie twin) path) s := by
  unfold sendFile fileRequest
  dsimp only
  rw [htwins.method_flag, htwins.twin_flag,
    htwins.header_eq (lit "If-Modified-Since:") (by decide) (by decide) (by decide)]
  have hopen : openRead plat.forTwin.files plat.forTwin.cwd path =
      openRead plat.files plat.cwd path := rfl
  rw [hopen]
  cases openRead plat.files plat.cwd path with
  | none =>
      refine (send_error_response_matches hplat ..).then_quiet fun _ middle _ _ => ?_
      exact log_silent ..
  | some found =>
      refine (quiet_lift _ s).then_answers fun ims middle _ _ => ?_
      refine .ite (fun _ => ?_) fun _ => ?_
      -- an unmodified file is answered with a header alone, whatever the method
      · refine (log_silent ..).then_answers fun _ middle _ _ => ?_
        have hrun := send_ignored_run hplat .server (lit "HTTP/1.1 304 Not Modified\r\n" ++
          lit "Last-Modified: " ++ httpDate found.2.mtime ++ crlf ++ standardHeaders plat) middle
        refine matches_of_header (is_header_of_standard plat ?_) hrun hrun (List.forall_mem_nil _)
        exact ⟨_, by simp only [List.append_assoc]; rfl⟩
      · refine (log_silent ..).then_answers fun _ middle _ _ => ?_
        refine header_then_body_matches hplat ?_ (send_pieces_run hplat ..)
        exact is_header_of_standard plat ⟨_, by simp only [List.append_assoc]; rfl⟩

/-- `serve_static` sends the twin the same header. -/
theorem serve_static_matches (cookie : Bytes) (s : Server) :
    Matches (serveStatic plat req cookie) (serveStatic plat.forTwin twin cookie) s := by
  have hfile (filePath : Bytes) :
      Matches (serveFile plat (fileRequest filePath cookie req))
        (serveFile plat.forTwin (fileRequest filePath cookie twin)) s := by
    unfold serveFile
    have htarget : target plat.forTwin (fileRequest filePath cookie twin).filePath =
        target plat (fileRequest filePath cookie req).filePath := rfl
    rw [htarget]
    cases target plat (fileRequest filePath cookie req).filePath with
    | listing path loc => exact send_listing_matches hplat htwins ..
    | document path => exact send_file_matches hplat htwins ..
  unfold serveStatic
  rw [joined_path_twin htwins]
  dsimp only
  rw [htwins.method_flag, htwins.twin_flag]
  refine .ite (fun _ => send_status_matches hplat ..) fun _ => ?_
  refine .ite (fun _ => send_status_matches hplat ..) fun _ => ?_
  rw [htwins.path_congr redirectable rfl]
  refine .ite (fun hredirect => ?_) fun _ => ?_
  -- a redirection names the path, and the root is not redirected
  · have hroot : req.cleanPath ≠ [] := by
      intro hpath
      rw [hpath, root_lacks_no_slash, Bool.false_and] at hredirect
      cases hredirect
    rw [htwins.path_eq hroot]
    exact send_status_matches hplat ..
  · have hmatches := hfile (resolvedFilePath plat (joinedPath plat req.cleanPath))
    unfold fileRequest at hmatches
    rwa [htwins.method_flag, htwins.twin_flag] at hmatches

end Handlers

end Dvws
