import Dvws.Handlers.Helper

/-!
# Static files

`handlers/static_files.cpp`. `serve_static` maps the path of the request into the document root
and resolves it there; `serve_file` answers with the file, with the index document of a
directory, or with a listing of it.
-/

namespace Dvws

open Effect Files

namespace StaticFiles

/-- One step of `html_escape` in `static_files.cpp`. -/
def escapeByte (c : UInt8) : Bytes :=
  if c = 38 then lit "&amp;"
  else if c = 60 then lit "&lt;"
  else if c = 62 then lit "&gt;"
  else if c = 34 then lit "&quot;"
  else [c]

/-- `html_escape` in `static_files.cpp`. -/
def htmlEscape (s : Bytes) : Bytes := s.flatMap escapeByte

/-- One line of the listing. -/
def listingRow (plat : Platform) (fsDir name : Bytes) : Bytes :=
  let sep := if fsDir.getLast? = some 47 then [] else [47]
  let found := stat plat.files plat.cwd (fsDir ++ sep ++ name)
  let isDir := found.any fun found => found.2.isDir
  let display := name ++ (if isDir then [47] else [])
  let esc := htmlEscape display
  let mtime := match found with
    | some (_, node) =>
        let tm := gmtime (node.mtime + plat.utcOffset node.mtime)
        twoDigits tm.day ++ lit "-" ++ monthName tm.month ++ lit "-" ++ yearText tm.year ++
          lit " " ++ hourMinute tm
    | none => lit "-"
  let size := match found with
    | some (_, node) => if isDir then lit "-" else toDecimal node.size
    | none => lit "-"
  let pad := if display.length < 52 then 52 - display.length else 1
  lit "<a href=\"" ++ esc ++ lit "\">" ++ esc ++ lit "</a>" ++ List.replicate pad 32 ++ mtime ++
    lit "  " ++ size ++ lit "\n"

/-- The names of `opendir` and `readdir` without `.`, sorted; `none` for a directory that cannot
be read. -/
def listedNames (plat : Platform) (fsDir : Bytes) : Option (List Bytes) :=
  match openRead plat.files plat.cwd fsDir with
  | some (_, .dir names ..) => some ((lit ".." :: names).mergeSort fun a b => decide (a ≤ b))
  | _ => none

/-- `autoindex_page`. -/
def autoindexPage (plat : Platform) (fsDir uri : Bytes) : Bytes :=
  match listedNames plat fsDir with
  | none => []
  | some names =>
      lit "<!DOCTYPE html>\n<html>\n<head>\n<meta charset=\"utf-8\">\n" ++
      lit "<title>Index of " ++ htmlEscape uri ++ lit "</title>\n<style>\n" ++
      lit "body\x7bfont-family:system-ui,-apple-system,sans-serif;background:#fff;" ++
      lit "color:#333;margin:32px\x7d\nh1\x7bfont-size:22px;font-weight:600\x7d\n" ++
      lit "pre\x7bfont-family:ui-monospace,Menlo,Consolas,monospace;font-size:14px;" ++
      lit "line-height:1.7\x7d\n" ++
      lit "a\x7bcolor:#0366d6;text-decoration:none\x7da:hover\x7btext-decoration:underline\x7d\n" ++
      lit "hr\x7bborder:0;border-top:1px solid #ddd;margin:16px 0\x7d\n" ++
      lit "</style>\n</head>\n<body>\n<h1>Index of " ++ htmlEscape uri ++ lit "</h1><hr><pre>" ++
      names.flatMap (listingRow plat fsDir) ++ lit "</pre><hr></body>\n</html>\n"

/-- The arguments that `serve_file` gets besides the path. -/
structure FileRequest where
  filePath : Bytes
  requestPath : Bytes
  request : Bytes
  setCookieHeader : Bytes
  headOnly : Bool

/-- The header before a listing. -/
def listingHeader (plat : Platform) (args : FileRequest) (body : Bytes) : Bytes :=
  lit "HTTP/1.1 200 OK\r\n" ++ lit "Content-Type: text/html; charset=utf-8\r\n" ++
    lit "Content-Length: " ++ toDecimal body.length ++ crlf ++ args.setCookieHeader ++
    standardHeaders plat

/-- The listing that answers a request for a directory; empty when it cannot be read. -/
def listingBody (plat : Platform) (args : FileRequest) (resolvedPath : Bytes) : Bytes :=
  autoindexPage plat resolvedPath
    (if args.requestPath ≠ [] then args.requestPath else lit "/")

/-- The answer to a directory without an index document. -/
def sendListing (plat : Platform) (args : FileRequest) (resolvedPath : Bytes) (loc : Location) :
    Handler Unit := do
  let body := listingBody plat args resolvedPath
  if body = [] then do
    sendErrorResponse plat 403 (lit "Forbidden") args.filePath (!args.headOnly)
    logRequestResponse plat args.request
      (lit "HTTP/1.1 403 Forbidden\r\nContent-Type: text/html\r\n\r\n")
  else do
    let responseHeader := listingHeader plat args body
    logRequestResponse plat args.request responseHeader
    let sent ← send plat .server responseHeader
    if sent && !args.headOnly then sendIgnored plat (.listing loc) body else pure ()

/-- The header before a file. -/
def fileHeader (plat : Platform) (args : FileRequest) (resolvedPath : Bytes) (node : Node) :
    Bytes :=
  lit "HTTP/1.1 200 OK\r\n" ++ lit "Content-Type: " ++ getContentType resolvedPath ++ crlf ++
    lit "Content-Length: " ++ toDecimal node.size ++ crlf ++ lit "Last-Modified: " ++
    httpDate node.mtime ++ crlf ++ args.setCookieHeader ++ standardHeaders plat

/-- The answer with the file that `fopen` gives for a path. An open file can be examined, so
`have_stat` holds. -/
def sendFile (plat : Platform) (args : FileRequest) (resolvedPath : Bytes) : Handler Unit :=
  match openRead plat.files plat.cwd resolvedPath with
  | none => do
      sendErrorResponse plat 404 (lit "Not Found") args.filePath (!args.headOnly)
      logRequestResponse plat args.request
        (lit "HTTP/1.1 404 Not Found\r\nContent-Type: text/plain\r\n\r\nFile Not Found")
  | some (loc, node) => do
      let lastModified := httpDate node.mtime
      let ims ← lift (extractHeaderValue args.request (lit "If-Modified-Since:"))
      if ims = lastModified then do
        let responseHeader := lit "HTTP/1.1 304 Not Modified\r\n" ++ lit "Last-Modified: " ++
          lastModified ++ crlf ++ standardHeaders plat
        logRequestResponse plat args.request responseHeader
        sendIgnored plat .server responseHeader
      else do
        let responseHeader := fileHeader plat args resolvedPath node
        logRequestResponse plat args.request responseHeader
        let sent ← send plat .server responseHeader
        if sent && !args.headOnly then sendPieces plat (.file loc) (chunks node.content)
        else pure ()

/-- The path of the index document of a directory, in the 600 bytes of `candidate`. -/
def indexCandidate (resolvedPath : Bytes) : Bytes :=
  let slash := if resolvedPath.getLast? = some 47 then [] else [47]
  (resolvedPath ++ slash ++ lit "index.html").take 599

/-- What `serve_file` answers a path with. -/
inductive Target where
  | listing (path : Bytes) (loc : Location)
  | document (path : Bytes)

/-- The choice that `serve_file` makes with its `stat` calls. `resolved_path` holds 511 bytes. -/
def target (plat : Platform) (filePath : Bytes) : Target :=
  let resolvedPath := filePath.take 511
  match stat plat.files plat.cwd resolvedPath with
  | some (loc, .dir ..) =>
      match stat plat.files plat.cwd (indexCandidate resolvedPath) with
      | some (_, .file ..) => .document ((indexCandidate resolvedPath).take 511)
      | _ => .listing resolvedPath loc
  | _ => .document resolvedPath

/-- `serve_file`. -/
def serveFile (plat : Platform) (args : FileRequest) : Handler Unit :=
  match target plat args.filePath with
  | .listing path loc => sendListing plat args path loc
  | .document path => sendFile plat args path

/-- The request path below the document root; the empty path is the root itself. -/
def joinedPath (plat : Platform) (cleanPath : Bytes) : Bytes :=
  cstr plat.serverDir ++ cleanPath ++ (if cleanPath = [] then [47] else [])

/-- The path ends in a slash, or in the name `.` or `..`. -/
def endsInDirectory (path : Bytes) : Bool :=
  path.getLast? = some 47 || (components path).getLast? = some (lit ".") ||
    (components path).getLast? = some (lit "..")

/-- `weakly_canonical(joined).string()`. What leads somewhere has no slash at its end; of what leads
nowhere the text is normalised, which leaves one behind a path that ends in a directory. -/
def weaklyCanonical (plat : Platform) (joined : Bytes) : Bytes :=
  let filePath := render (normalize plat.cwd joined)
  filePath ++
    if (stat plat.files plat.cwd joined).isNone ∧ endsInDirectory joined ∧
      filePath.getLast? ≠ some 47 then [47] else []

/-- The path of the answer, with the trailing slash of `joined` restored. -/
def resolvedFilePath (plat : Platform) (joined : Bytes) : Bytes :=
  let filePath := weaklyCanonical plat joined
  filePath ++ (if joined.getLast? = some 47 ∧ filePath.getLast? ≠ some 47 then [47] else [])

/-- The path keeps a slash at its end, or has it restored. -/
def keepsSlash (plat : Platform) (joined : Bytes) : Bool :=
  joined.getLast? = some 47 || (endsInDirectory joined && (stat plat.files plat.cwd joined).isNone)

/-- A slash at the end is kept. -/
theorem keeps_slash_of_slash {plat : Platform} {joined : Bytes} (h : joined.getLast? = some 47) :
    keepsSlash plat joined = true := by
  rw [keepsSlash, h]
  rfl

/-- The path of the answer is that of the place, with a slash where one is kept. -/
theorem resolved_file_path_eq (plat : Platform) (joined : Bytes) :
    resolvedFilePath plat joined = render (normalize plat.cwd joined) ++
      if keepsSlash plat joined ∧ (render (normalize plat.cwd joined)).getLast? ≠ some 47 then [47]
      else [] := by
  unfold resolvedFilePath weaklyCanonical keepsSlash
  generalize render (normalize plat.cwd joined) = filePath
  dsimp only
  by_cases hlast : filePath.getLast? = some 47
  · simp [hlast]
  cases hnowhere : (stat plat.files plat.cwd joined).isNone with
  | false => simp [hlast]
  | true =>
      by_cases hend : joined.getLast? = some 47
      · simp [endsInDirectory, hend, hlast]
      · cases hdirectory : endsInDirectory joined <;> simp [hend, hlast]

/-- Every byte is printable and none is a space. -/
def redirectable (cleanPath : Bytes) : Bool := cleanPath.all fun c => 33 ≤ c && c ≤ 126

/-- The path names a directory without the trailing slash. -/
def lacksSlash (plat : Platform) (filePath : Bytes) : Bool :=
  filePath.getLast? ≠ some 47 &&
    (stat plat.files plat.cwd filePath).any fun found => found.2.isDir

end StaticFiles

open StaticFiles

/-- `serve_static`. -/
def serveStatic (plat : Platform) (req : HttpRequest) (setCookieHeader : Bytes) : Handler Unit :=
  let joined := joinedPath plat req.cleanPath
  let headOnly := req.method == lit "HEAD"
  if (cstr plat.serverDir).isPrefixOf joined = false then
    sendStatus plat (lit "403 Forbidden") htmlType .server
      (errorPage plat 403 (lit "Forbidden")
        (lit "The requested path is outside the document root.")) setCookieHeader headOnly
  else if plat.canonicalFails joined then
    sendStatus plat (lit "404 Not Found") htmlType .server
      (errorPage plat 404 (lit "Not Found") (lit "The requested path could not be resolved."))
      setCookieHeader headOnly
  else
    let filePath := resolvedFilePath plat joined
    if lacksSlash plat filePath && redirectable req.cleanPath then
      sendStatus plat (lit "301 Moved Permanently") htmlType .server
        (errorPage plat 301 (lit "Moved Permanently") (lit "The document has moved."))
        (lit "Location: " ++ req.cleanPath ++ lit "/" ++ crlf ++ setCookieHeader) headOnly
    else serveFile plat ⟨filePath, req.cleanPath, req.text, setCookieHeader, headOnly⟩

section Frames

variable {κ : Type} {keep : Server → κ} {plat : Platform}

/-- The event is none of those that only the router causes. -/
def HandlerEvent : Event → Prop
  | .mintSession _ => False
  | .close => False
  | _ => True

/-- Plain events are no events of the router. -/
theorem handler_event_of_plain {e : Event} (h : PlainEvent e) : HandlerEvent e := by
  cases e <;> trivial

/-- A plain procedure does nothing that is left to the router. -/
theorem handler_of_plain {α : Type} {x : Handler α} (hx : Behaves PlainEvent keep x) :
    Behaves HandlerEvent keep x :=
  hx.weaken (fun _ => handler_event_of_plain) id

/-- A directory is answered without an event of the router. -/
theorem send_listing_behaves (args : FileRequest) (path : Bytes) (loc : Location) :
    Behaves HandlerEvent keep (sendListing plat args path loc) := by
  refine .ite (handler_of_plain (.bind (send_error_response_behaves ..) fun _ => ?_)) ?_
  · exact log_request_response_behaves ..
  · refine .bind (handler_of_plain (log_request_response_behaves ..)) fun _ => ?_
    exact .bind (send_behaves trivial) fun _ => .ite (send_ignored_behaves trivial) (.pure ())

/-- A file is answered without an event of the router. -/
theorem send_file_behaves (args : FileRequest) (path : Bytes) :
    Behaves HandlerEvent keep (sendFile plat args path) := by
  unfold sendFile
  split
  · refine handler_of_plain (.bind (send_error_response_behaves ..) fun _ => ?_)
    exact log_request_response_behaves ..
  · refine .bind (.lift (extract_header_value_returns ..)) fun ims => .ite ?_ ?_
    · refine .bind (handler_of_plain (log_request_response_behaves ..)) fun _ => ?_
      exact send_ignored_behaves trivial
    · refine .bind (handler_of_plain (log_request_response_behaves ..)) fun _ => ?_
      refine .bind (send_behaves trivial) fun _ => .ite ?_ (.pure ())
      exact send_pieces_behaves (fun _ => trivial) _

/-- `serve_static` does nothing that is left to the router. -/
theorem serve_static_behaves (req : HttpRequest) (setCookieHeader : Bytes) :
    Behaves HandlerEvent keep (serveStatic plat req setCookieHeader) := by
  refine .ite (handler_of_plain (send_status_behaves server_is_plain ..)) ?_
  refine .ite (handler_of_plain (send_status_behaves server_is_plain ..)) ?_
  refine .ite (handler_of_plain (send_status_behaves server_is_plain ..)) ?_
  unfold serveFile
  split
  · exact send_listing_behaves ..
  · exact send_file_behaves ..

end Frames

end Dvws
