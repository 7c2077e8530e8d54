import Dvws.Http.Response

/-!
# The admin handlers

The handlers of `handlers/admin.cpp`, which run after the router has admitted the request. A rule
lives twice: as an object in `cgiRules` and as a tag in `routeTypes`. `add_rule` appends an
object and overwrites the tag; `update_rule` overwrites the tag only.
-/

namespace Dvws

open Effect

/-- A JSON answer with a status and a message. -/
def jsonMessage (statusText message : Bytes) : Bytes :=
  lit "\x7b\"status\": \"" ++ statusText ++ lit "\", \"message\": \"" ++ message ++ lit "\"\x7d"

/-- Answer with an error message. -/
def sendError (plat : Platform) (req : HttpRequest) (message : Bytes) : Handler Unit :=
  sendJson plat (jsonMessage (lit "error") message) (req.method == lit "HEAD")

/-- Answer with a success message. -/
def sendSuccess (plat : Platform) (req : HttpRequest) (message : Bytes) : Handler Unit :=
  sendJson plat (jsonMessage (lit "ok") message) (req.method == lit "HEAD")

/-- `decode_status_param`: valid escapes become one byte, anything else is copied. -/
def decodeStatusParam : Bytes → Bytes
  | [] => []
  | c :: rest =>
      if endsParameter c then []
      else if c = 37 then
        match rest with
        | x :: y :: tail =>
            match hexVal x, hexVal y with
            | some hi, some lo => UInt8.ofNat (16 * hi + lo) :: decodeStatusParam tail
            | _, _ => c :: decodeStatusParam (x :: y :: tail)
        | short => c :: decodeStatusParam short
      else c :: decodeStatusParam rest

/-- The decoder stops at the end of the parameter. -/
theorem decode_of_ends {c : UInt8} (h : endsParameter c = true) (rest : Bytes) :
    decodeStatusParam (c :: rest) = [] := by
  rw [decodeStatusParam.eq_def]
  dsimp only
  rw [if_pos h]

/-- The request buffer; a text without a NUL has one behind it. -/
def terminated (raw : Bytes) : Bytes := if 0 ∈ raw then raw else raw ++ [0]

/-- Memory from the start of the request buffer on: the buffer, and the stack behind it. A reader
that comes to the end of the stack is stopped there. -/
def requestMemory (plat : Platform) (raw : Bytes) : Bytes :=
  terminated raw ++
    (List.range plat.stackBehind).map fun i => plat.beyond ((terminated raw).length + i)

/-- `system_status`. The decoder and the estimator read memory behind `status=` themselves; the
estimator steps over the NUL of a text that ends in a `%`, and goes on behind it. -/
def systemStatus (plat : Platform) (req : HttpRequest) : Handler Unit :=
  match Text.find (lit "status=") req.text with
  | none => sendError plat req (lit "Missing status parameter.")
  | some pos => do
      let param := (requestMemory plat req.raw).drop (pos + 7)
      let capacity := estimateDecodedLength param + 1
      if plat.malloc capacity then do
        emit (.decodeStatus capacity (decodeStatusParam param))
        sendSuccess plat req (lit "System status updated.")
      else sendError plat req (lit "Allocation failed.")

/-- The value of leading decimal digits. -/
def decimalValue (digits : Bytes) : Nat :=
  (digits.takeWhile fun c => 48 ≤ c && c ≤ 57).foldl (fun n c => 10 * n + (c.toNat - 48)) 0

/-- `strtoul(s, nullptr, 10)` with a 64-bit `unsigned long`; `strtoull` is the same function. -/
def strtoul (s : Bytes) : Nat :=
  match s.dropWhile isSpace with
  | 45 :: rest =>
      if decimalValue rest < 2 ^ 64 then (2 ^ 64 - decimalValue rest) % 2 ^ 64 else 2 ^ 64 - 1
  | 43 :: rest => min (decimalValue rest) (2 ^ 64 - 1)
  | rest => min (decimalValue rest) (2 ^ 64 - 1)

/-- `sizeof(UploadHeader)`. -/
def uploadHeaderSize : Nat := 64

/-- The size that `upload_file` allocates, summed in 32 bits. -/
def uploadAllocation (contentLen filenameLen : Nat) : Nat :=
  (uploadHeaderSize + contentLen + filenameLen) % 2 ^ 32

/-- `upload_file`. The record header and the body are written to the allocation; a failed
allocation is not answered at all. -/
def uploadFile (plat : Platform) (req : HttpRequest) : Handler Unit := do
  let contentLength ← lift (header req.text (lit "Content-Length"))
  if contentLength = [] then sendError plat req (lit "Missing Content-Length.")
  else do
    let filenameLength ← lift (header req.text (lit "X-Filename-Length"))
    if filenameLength = [] then sendError plat req (lit "Missing X-Filename-Length.")
    else do
      let contentLen := strtoul contentLength % 2 ^ 32
      let filenameLen := strtoul filenameLength % 2 ^ 32
      let allocation := uploadAllocation contentLen filenameLen
      if plat.malloc allocation then do
        emit (.receive allocation contentLen)
        sendSuccess plat req (lit "Upload processed.")
      else pure ()

/-- The object that an `add_rule` request asks for, or `none` for an unknown type. -/
def requestedRoute (plat : Platform) (params : Params) : Option Route :=
  let path := params.subscript (lit "path")
  if params.subscript (lit "type") = lit "static" then
    some (.static path (urlDecode plat.uninit (params.subscript (lit "directory"))))
  else if params.subscript (lit "type") = lit "cgi" then
    some (.cgi path (urlDecode plat.uninit (params.subscript (lit "executable"))))
  else none

/-- The answer to an unknown type. -/
def unknownType : Bytes := lit "Unknown type. Use ?type=static or ?type=cgi"

/-- `add_rule`. -/
def addRule (plat : Platform) (req : HttpRequest) : Handler Unit := do
  let params ← lift (extractQueryParameters req.text)
  match requestedRoute plat params with
  | none => sendError plat req unknownType
  | some rule => do
      modify fun s => { s with
        cgiRules := s.cgiRules ++ [rule], routeTypes := s.routeTypes.insert rule.path rule.type }
      let server ← get
      sendJson plat (lit "\x7b\"status\": \"ok\", \"message\": \"Rule added.\", \"rules\": " ++
        toDecimal server.cgiRules.length ++ lit "\x7d") (req.method == lit "HEAD")

/-- The tag that an `update_rule` request asks for, or `none` for an unknown type. -/
def requestedType (params : Params) : Option RouteType :=
  if params.subscript (lit "type") = lit "static" then some .static
  else if params.subscript (lit "type") = lit "cgi" then some .cgi
  else none

/-- `update_rule`. -/
def updateRule (plat : Platform) (req : HttpRequest) : Handler Unit := do
  let params ← lift (extractQueryParameters req.text)
  let path := params.subscript (lit "path")
  let server ← get
  if path ∈ server.routeTypes then
    match requestedType params with
    | none => sendError plat req unknownType
    | some newType => do
        modify fun s => { s with routeTypes := s.routeTypes.insert path newType }
        sendSuccess plat req (lit "Rule updated.")
  else sendError plat req (lit "No rule registered for that path.")

/-- `install_log_sink` on a new sink of this kind: the outgoing sink is deleted at once. -/
def installLogSink (kind : SinkKind) : Handler Unit := do
  let server ← get
  let sink : Sink := ⟨server.sinksMade, kind⟩
  modify fun s => { s with sink := some sink, sinksMade := s.sinksMade + 1 }
  emit (.installSink sink)
  match server.sink with
  | some old => emit (.deleteSink old)
  | none => pure ()

/-- `logging`. -/
def logging (plat : Platform) (req : HttpRequest) : Handler Unit := do
  let params ← lift (extractQueryParameters req.text)
  if params.subscript (lit "output") = lit "file" then do
    installLogSink .file
    sendSuccess plat req (lit "Logging output set to file.")
  else if params.subscript (lit "output") = lit "syslog" then do
    installLogSink .syslog
    sendSuccess plat req (lit "Logging output set to syslog.")
  else sendError plat req (lit "Unknown output. Use ?output=file or ?output=syslog")

/-- The 128 bytes of the identity record: the text, its NUL, and what the buffer held before. -/
def identityRecord (plat : Platform) (username : Bytes) : Bytes :=
  let text := (lit "username=" ++ username ++ lit "\n").take 127
  (List.range 128).map fun i => (text ++ [0]).getD i (plat.leftover i)

/-- `whoami`. -/
def whoami (plat : Platform) (req : HttpRequest) : Handler Unit := do
  let auth ← lift (header req.text (lit "Authorization"))
  let credentials ← lift (suppliedCredentials plat.malloc auth)
  match credentials with
  | none =>
      sendStatus plat (lit "401 Unauthorized") (lit "application/json") .server
        (jsonMessage (lit "error") (lit "no credentials")) [] (req.method == lit "HEAD")
  | some (username, _) =>
      sendStatus plat (lit "200 OK") (lit "application/octet-stream") .server
        (identityRecord plat username) [] (req.method == lit "HEAD")

section Frames

variable {κ : Type} {keep : Server → κ} {plat : Platform}

/-- An error answer is plain. -/
theorem send_error_behaves (req : HttpRequest) (message : Bytes) :
    Behaves PlainEvent keep (sendError plat req message) := send_json_behaves ..

/-- A success answer is plain. -/
theorem send_success_behaves (req : HttpRequest) (message : Bytes) :
    Behaves PlainEvent keep (sendSuccess plat req message) := send_json_behaves ..

/-- `system_status` is plain. -/
theorem system_status_behaves (req : HttpRequest) :
    Behaves PlainEvent keep (systemStatus plat req) := by
  unfold systemStatus
  split
  · exact send_error_behaves ..
  · refine .ite (.bind (.emit trivial) fun _ => ?_) (send_error_behaves ..)
    exact send_success_behaves ..

/-- `upload_file` is plain. -/
theorem upload_file_behaves (req : HttpRequest) :
    Behaves PlainEvent keep (uploadFile plat req) := by
  refine .bind (.lift (extract_header_value_returns ..)) fun contentLength => ?_
  refine .ite (send_error_behaves ..) ?_
  refine .bind (.lift (extract_header_value_returns ..)) fun filenameLength => ?_
  refine .ite (send_error_behaves ..) (.ite (.bind (.emit trivial) fun _ => ?_) (.pure ()))
  exact send_success_behaves ..

/-- `add_rule` is plain and touches the registries only. -/
theorem add_rule_behaves
    (hkeep : ∀ s rules types, keep { s with cgiRules := rules, routeTypes := types } = keep s)
    (req : HttpRequest) : Behaves PlainEvent keep (addRule plat req) := by
  refine .bind (.lift (extract_query_parameters_returns _)) fun params => ?_
  split
  · exact send_error_behaves ..
  · refine .bind (.modify fun s => hkeep s _ _) fun _ => .bind .get fun _ => ?_
    exact send_json_behaves ..

/-- `update_rule` is plain and touches the tags only. -/
theorem update_rule_behaves (hkeep : ∀ s types, keep { s with routeTypes := types } = keep s)
    (req : HttpRequest) : Behaves PlainEvent keep (updateRule plat req) := by
  refine .bind (.lift (extract_query_parameters_returns _)) fun params => .bind .get fun _ => ?_
  refine .ite ?_ (send_error_behaves ..)
  split
  · exact send_error_behaves ..
  · exact .bind (.modify fun s => hkeep s _) fun _ => send_success_behaves ..

/-- Installing a sink touches the sink only. -/
theorem install_log_sink_behaves
    (hkeep : ∀ s sink made, keep { s with sink := sink, sinksMade := made } = keep s)
    (kind : SinkKind) : Behaves PlainEvent keep (installLogSink kind) := by
  refine .bind .get fun server => .bind (.modify fun s => hkeep s _ _) fun _ => ?_
  refine .bind (.emit trivial) fun _ => ?_
  split
  · exact .emit trivial
  · exact .pure ()

/-- `logging` is plain and touches the sink only. -/
theorem logging_behaves
    (hkeep : ∀ s sink made, keep { s with sink := sink, sinksMade := made } = keep s)
    (req : HttpRequest) : Behaves PlainEvent keep (logging plat req) := by
  refine .bind (.lift (extract_query_parameters_returns _)) fun params => ?_
  refine .ite (.bind (install_log_sink_behaves hkeep _) fun _ => send_success_behaves ..) ?_
  refine .ite (.bind (install_log_sink_behaves hkeep _) fun _ => send_success_behaves ..) ?_
  exact send_error_behaves ..

/-- `whoami` is plain for a request whose `Authorization` value is not truncated. -/
theorem whoami_behaves {req : HttpRequest} {auth : Bytes}
    (hauth : header req.text (lit "Authorization") = .ok auth) (h : ¬ Truncated auth) :
    Behaves PlainEvent keep (whoami plat req) := by
  unfold whoami
  rw [hauth, lift_ok_bind]
  refine .bind (.lift (supplied_credentials_returns _ h)) fun credentials => ?_
  split
  · exact send_status_behaves server_is_plain ..
  · exact send_status_behaves server_is_plain ..

end Frames

end Dvws
