import Dvws.Handlers.Logs

/-!
# The bundled CGI helper and content types

`mime_type_handler.cpp`: the table of content types, and the `/cgi-helper` route, which stages a
copy of the helper under a name anyone can predict and executes it there.
-/

namespace Dvws

open Effect Files

/-- The pieces that a loop of `fread` calls into a buffer of 1024 bytes hands on; `fuel` bounds
the number of calls. -/
def chunksFrom : Nat → Bytes → List Bytes
  | 0, _ => []
  | fuel + 1, data =>
      if data = [] then [] else data.take 1024 :: chunksFrom fuel (data.drop 1024)

/-- The pieces of the whole data. -/
def chunks (data : Bytes) : List Bytes := chunksFrom data.length data

/-- Send pieces until the client stops taking them. -/
def sendPieces (plat : Platform) (origin : Origin) : List Bytes → Handler Unit
  | [] => pure ()
  | piece :: pieces => do
      let sent ← send plat origin piece
      if sent then sendPieces plat origin pieces else pure ()

/-- `kTypes`. -/
def contentTypes : List (Bytes × Bytes) :=
  [(lit ".html", lit "text/html; charset=utf-8"), (lit ".htm", lit "text/html; charset=utf-8"),
    (lit ".css", lit "text/css; charset=utf-8"),
    (lit ".js", lit "application/javascript; charset=utf-8"),
    (lit ".mjs", lit "application/javascript; charset=utf-8"),
    (lit ".json", lit "application/json; charset=utf-8"),
    (lit ".txt", lit "text/plain; charset=utf-8"), (lit ".csv", lit "text/csv; charset=utf-8"),
    (lit ".md", lit "text/plain; charset=utf-8"),
    (lit ".xml", lit "application/xml; charset=utf-8"), (lit ".svg", lit "image/svg+xml"),
    (lit ".ico", lit "image/x-icon"), (lit ".png", lit "image/png"),
    (lit ".gif", lit "image/gif"), (lit ".jpeg", lit "image/jpeg"),
    (lit ".jpg", lit "image/jpeg"), (lit ".webp", lit "image/webp"),
    (lit ".pdf", lit "application/pdf"), (lit ".zip", lit "application/zip"),
    (lit ".gz", lit "application/gzip"), (lit ".tar", lit "application/x-tar"),
    (lit ".mp4", lit "video/mp4"), (lit ".woff", lit "font/woff"),
    (lit ".woff2", lit "font/woff2")]

/-- `strrchr(path, '.')`. -/
def extension (path : Bytes) : Option Bytes :=
  if 46 ∈ path then some (46 :: (path.reverse.takeWhile (· ≠ 46)).reverse) else none

/-- `get_content_type`. -/
def getContentType (filePath : Bytes) : Bytes :=
  ((extension filePath).bind fun ext => contentTypes.lookup ext).getD
    (lit "application/octet-stream")

/-- The staging path of `handle_cgi_helper`. -/
def stagingPath (plat : Platform) : Bytes := lit "/tmp/dvws_cgi_" ++ toDecimal plat.pid

/-- The executable that `handle_cgi_helper` stages. -/
def helperFile (plat : Platform) : Option Bytes :=
  plat.helperPath.bind fun path =>
    (openRead plat.files plat.cwd (cstr path)).map fun found => found.2.content

/-- Stream the output of the helper; for HEAD it is only drained. -/
def streamOutput (plat : Platform) (path output : Bytes) (wanted : Bool) : Handler Unit :=
  if wanted then sendPieces plat (.command path) (chunks output) else pure ()

/-- `handle_cgi_helper`. -/
def handleCgiHelper (plat : Platform) (request : Bytes) (sendBody : Bool) : Handler Unit :=
  match helperFile plat with
  | none => do
      sendStatus plat (lit "500 Internal Server Error") htmlType .server
        (errorPage plat 500 (lit "Internal Server Error")
          (lit "The bundled CGI helper executable could not be located.")) [] (!sendBody)
      logRequestResponse plat request (lit "HTTP/1.1 500 Internal Server Error")
  | some helper =>
      let path := stagingPath plat
      if plat.canCreate path then do
        emitAll [.writeFile path (helper.take (plat.stored path helper)), .changeMode path,
          .popen path]
        match plat.popen path with
        | none => emit (.removeFile path)
        | some output => do
            let responseHeader := lit "HTTP/1.1 200 OK\r\n" ++
              lit "Content-Type: text/plain; charset=utf-8\r\n" ++ standardHeaders plat
            logRequestResponse plat request responseHeader
            let sent ← send plat .server responseHeader
            streamOutput plat path output (sent && sendBody)
            emit (.removeFile path)
      else pure ()

section Frames

variable {κ : Type} {keep : Server → κ} {plat : Platform}

/-- Sending pieces emits sends of that origin only. -/
theorem send_pieces_behaves {emits : Event → Prop} {origin : Origin}
    (h : ∀ data, emits (.send origin data)) (pieces : List Bytes) :
    Behaves emits keep (sendPieces plat origin pieces) := by
  induction pieces with
  | nil => exact .pure ()
  | cons piece pieces ih => exact .bind (send_behaves (h piece)) fun _ => .ite ih (.pure ())

/-- Streaming the output of the helper is plain. -/
theorem stream_output_behaves (path output : Bytes) (wanted : Bool) :
    Behaves PlainEvent keep (streamOutput plat path output wanted) :=
  .ite (send_pieces_behaves (fun _ => trivial) _) (.pure ())

/-- The helper route is plain. -/
theorem handle_cgi_helper_behaves (request : Bytes) (sendBody : Bool) :
    Behaves PlainEvent keep (handleCgiHelper plat request sendBody) := by
  unfold handleCgiHelper
  split
  · refine .bind (send_status_behaves server_is_plain ..) fun _ => ?_
    exact log_request_response_behaves ..
  · refine .ite (.bind (.emitAll fun e he => ?_) fun _ => ?_) (.pure ())
    · simp only [List.mem_cons, List.not_mem_nil, or_false] at he
      obtain rfl | rfl | rfl := he <;> trivial
    · split
      · exact .emit trivial
      · refine .bind (log_request_response_behaves ..) fun _ => ?_
        refine .bind (send_behaves trivial) fun _ => ?_
        exact .bind (stream_output_behaves ..) fun _ => .emit trivial

end Frames

end Dvws
