import Dvws.Http.Response

/-!
# The access log and its viewer

`request_logger.cpp`. With a sink installed, `log_request_response` hands the first line of the
request to the asynchronous pipeline together with that sink; otherwise it rotates the log file
and appends an entry, with the client's `X-Forwarded-For` value as a format string.
-/

namespace Dvws

open Effect Files

/-- `kLogPath`. -/
def logPath : Bytes := lit "/tmp/server.log"

/-- `kMaxLogBytes`. -/
def maxLogBytes : Nat := 1048576

/-- The rotated log file of this age. -/
def rotatedPath (age : Nat) : Bytes := logPath ++ lit "." ++ toDecimal age

/-- `rotate_log_if_needed`, with `kRotationKeep = 3`. -/
def rotateLogIfNeeded (plat : Platform) : Handler Unit :=
  match stat plat.files plat.cwd logPath with
  | none => pure ()
  | some (_, node) =>
      if node.size < maxLogBytes then pure ()
      else emitAll [.removeFile (rotatedPath 3), .renameFile (rotatedPath 2) (rotatedPath 3),
        .renameFile (rotatedPath 1) (rotatedPath 2), .renameFile logPath (rotatedPath 1)]

/-- The message handed to a sink: the first line of the request, without its line end. -/
def sinkMessage (request : Bytes) : Bytes :=
  let line := match Text.find (lit "\n") request with
    | some eol => request.take eol
    | none => request
  if line.getLast? = some 13 then line.dropLast else line

/-- The pieces that `write_custom_field` appends. -/
def customField (timestamp field : Bytes) : List LogPiece :=
  [.text (lit "[" ++ timestamp ++ lit "] X-Forwarded-For: "), .format (cstr field),
    .text (lit "\n")]

/-- The lines of a log entry for the query parameters. -/
def parameterLines (params : Params) : List LogPiece :=
  params.inOrder.map fun (key, value) =>
    .text (lit "Key: " ++ cstr key ++ lit ", Value: " ++ cstr value ++ lit "\n")

/-- `log_request_response`. -/
def logRequestResponse (plat : Platform) (request response : Bytes) : Handler Unit := do
  let now := localNow plat
  let timestamp := isoDate now ++ lit " " ++ clockTime now
  let server ← get
  match server.sink with
  | some sink => emit (.enqueueLog sink timestamp (sinkMessage request))
  | none => do
      let queryParams ← lift (extractQueryParameters request)
      rotateLogIfNeeded plat
      if plat.canCreate logPath then do
        let field ← lift (extractHeaderValue request (lit "X-Forwarded-For:"))
        let custom := if (Text.find (lit "X-Forwarded-For:") request).isSome
          then customField timestamp field else []
        emit (.appendLog ([.text (lit "[" ++ timestamp ++ lit "] Request:\n")] ++
          parameterLines queryParams ++ custom ++
          [.text (lit "[" ++ timestamp ++ lit "] Response:\n"),
            .text (cstr response ++ lit "\n")]))
      else pure ()

/-- `shell_escape`. -/
def shellEscape (s : Bytes) : Bytes := lit "\"" ++ s ++ lit "\""

/-- What `result_stream << buffer` collects over the loop of `fgets` calls into a buffer of 256
bytes: line by line, or 255 bytes of a longer line at a time, each up to its first NUL. `room` is
what is left of the buffer and `line` what is in it. -/
def fgetsFrom : Nat → Bytes → Bytes → Bytes
  | _, line, [] => cstr line
  | room, line, c :: rest =>
      if c = 10 ∨ room ≤ 1 then cstr (line ++ [c]) ++ fgetsFrom 255 [] rest
      else fgetsFrom (room - 1) (line ++ [c]) rest

/-- The text read from a pipe. -/
def readPipe (output : Bytes) : Bytes := fgetsFrom 255 [] output

/-- The command of the log viewer. -/
def logCommand (plat : Platform) (level search : Bytes) : Bytes :=
  (if level ≠ [] then lit "grep -i " ++ level ++ lit " " ++ logPath
    else lit "tail -n 50 " ++ logPath) ++
  (if search ≠ [] then lit " | grep -i " ++ shellEscape (urlDecode plat.uninit search) else [])

/-- `handle_log_viewer`. -/
def handleLogViewer (plat : Platform) (request : Bytes) : Handler Unit := do
  let queryParams ← lift (extractQueryParameters request)
  let level := queryParams.subscript (lit "level")
  let search := queryParams.subscript (lit "search")
  let headOnly := (lit "HEAD ").isPrefixOf request
  if level ≠ [] ∧ level ∉ [lit "error", lit "warning", lit "info"] then
    sendStatus plat (lit "400 Bad Request") (lit "application/json") .server
      (lit "\x7b\"status\": \"error\", \"message\": \"Invalid level." ++
        lit " Use error, warning or info.\"\x7d") [] headOnly
  else do
    let command := cstr (logCommand plat level search)
    emit (.popen command)
    match plat.popen command with
    | none =>
        sendStatus plat (lit "500 Internal Server Error") plainType .server
          (lit "Failed to read logs.\n") [] false
    | some output =>
        if readPipe output = [] then
          sendStatus plat (lit "200 OK") plainType .server
            (lit "No matching log entries found.\n") [] headOnly
        else
          sendStatus plat (lit "200 OK") plainType (.command command) (readPipe output) []
            headOnly

section Frames

variable {κ : Type} {keep : Server → κ} {plat : Platform}

/-- The event belongs to the access log. -/
def LogEvent : Event → Prop
  | .removeFile _ => True
  | .renameFile _ _ => True
  | .appendLog _ => True
  | .enqueueLog .. => True
  | _ => False

/-- Events of the log are plain. -/
theorem plain_of_log_event {e : Event} (h : LogEvent e) : PlainEvent e := by
  cases e <;> trivial

/-- Rotation touches the log files only. -/
theorem rotate_log_if_needed_logs : Behaves LogEvent keep (rotateLogIfNeeded plat) := by
  unfold rotateLogIfNeeded
  split
  · exact .pure ()
  · refine .ite (.pure ()) (.emitAll fun e he => ?_)
    simp only [List.mem_cons, List.not_mem_nil, or_false] at he
    obtain rfl | rfl | rfl | rfl := he <;> trivial

/-- Logging writes to the log only. -/
theorem log_request_response_logs (request response : Bytes) :
    Behaves LogEvent keep (logRequestResponse plat request response) := by
  refine .bind .get fun server => ?_
  cases server.sink with
  | some sink => exact .emit trivial
  | none =>
      refine .bind (.lift (extract_query_parameters_returns request)) fun params => ?_
      refine .bind rotate_log_if_needed_logs fun _ => .ite ?_ (.pure ())
      exact .bind (.lift (extract_header_value_returns ..)) fun field => .emit trivial

/-- Logging is plain. -/
theorem log_request_response_behaves (request response : Bytes) :
    Behaves PlainEvent keep (logRequestResponse plat request response) :=
  (log_request_response_logs request response).weaken (fun _ => plain_of_log_event) id

/-- The log viewer is plain. -/
theorem handle_log_viewer_behaves (request : Bytes) :
    Behaves PlainEvent keep (handleLogViewer plat request) := by
  refine .bind (.lift (extract_query_parameters_returns request)) fun params => ?_
  refine .ite (send_status_behaves server_is_plain ..) ?_
  refine .bind (.emit trivial) fun _ => ?_
  split
  · exact send_status_behaves server_is_plain ..
  · exact .ite (send_status_behaves server_is_plain ..)
      (send_status_behaves (command_is_plain _) ..)

end Frames

end Dvws
