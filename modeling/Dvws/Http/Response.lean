import Dvws.Server

/-!
# Responses

The helpers of `http/response.cpp`, with `send_error_response` and `send_basic_auth_prompt`,
which write their headers themselves. `PlainEvent` holds of everything a handler may do apart
from the four actions that belong to the router and to the static files: to close the socket, to
mint a session, and to send the contents of a file or a directory listing.
-/

namespace Dvws

open Effect

/-- The end of a line of HTTP. -/
def crlf : Bytes := lit "\r\n"

/-- `kServerBanner`. -/
def serverBanner : Bytes := lit "DVWS/1.0"

/-- `http_date_now`. -/
def httpDateNow (plat : Platform) : Bytes := httpDate plat.time

/-- The three headers that end every response header. -/
def standardHeaders (plat : Platform) : Bytes :=
  lit "Server: " ++ serverBanner ++ crlf ++ lit "Date: " ++ httpDateNow plat ++ crlf ++
    lit "Connection: close\r\n" ++ crlf

/-- `error_page`. -/
def errorPage (plat : Platform) (statusCode : Nat) (reason detail : Bytes) : Bytes :=
  let title := toDecimal statusCode ++ lit " " ++ reason
  let detailHtml :=
    if detail = [] then [] else lit "<p class=\"detail\">" ++ detail ++ lit "</p>\n"
  lit "<!DOCTYPE html>\n<html>\n<head>\n<meta charset=\"utf-8\">\n<title>" ++ title ++
    lit "</title>\n<style>\n" ++
    lit "body\x7bfont-family:system-ui,-apple-system,'Segoe UI',sans-serif;" ++
    lit "background:#f4f4f4;color:#333;margin:0;padding:48px 16px\x7d\n" ++
    lit ".card\x7bmax-width:520px;margin:0 auto;background:#fff;" ++
    lit "border:1px solid #ddd;border-radius:8px;padding:32px 40px;" ++
    lit "box-shadow:0 2px 6px rgba(0,0,0,.06)\x7d\n" ++
    lit "h1\x7bfont-size:56px;margin:0 0 8px;color:#c0392b;letter-spacing:-2px\x7d\n" ++
    lit "p\x7bfont-size:16px;line-height:1.5;margin:8px 0\x7d\n" ++
    lit ".detail\x7bfont-family:ui-monospace,Menlo,Consolas,monospace;" ++
    lit "font-size:13px;background:#f8f8f8;border:1px solid #eee;" ++
    lit "border-radius:4px;padding:8px 12px;word-break:break-all\x7d\n" ++
    lit "hr\x7bborder:0;border-top:1px solid #eee;margin:24px 0 12px\x7d\n" ++
    lit "address\x7bfont-size:12px;color:#888;font-style:normal\x7d\n" ++
    lit "</style>\n</head>\n<body>\n<div class=\"card\">\n<h1>" ++ toDecimal statusCode ++
    lit "</h1>\n<p>" ++ reason ++ lit "</p>\n" ++ detailHtml ++ lit "<hr>\n<address>" ++
    serverBanner ++ lit " Server at port " ++ lit (toString plat.port) ++
    lit "</address>\n</div>\n</body>\n</html>\n"

/-- The header that `send_status` sends. -/
def statusHeader (plat : Platform) (statusCode contentType : Bytes) (length : Nat)
    (extraHeaders : Bytes) : Bytes :=
  lit "HTTP/1.1 " ++ statusCode ++ crlf ++ lit "Content-Type: " ++ contentType ++ crlf ++
    lit "Content-Length: " ++ toDecimal length ++ crlf ++ extraHeaders ++ standardHeaders plat

/-- `send_status`; `origin` says where the body comes from. -/
def sendStatus (plat : Platform) (statusCode contentType : Bytes) (origin : Origin) (body : Bytes)
    (extraHeaders : Bytes) (headOnly : Bool) : Handler Unit := do
  sendIgnored plat .server (statusHeader plat statusCode contentType body.length extraHeaders)
  if headOnly = false ∧ body ≠ [] then sendIgnored plat origin body else pure ()

/-- `send_json`. -/
def sendJson (plat : Platform) (body : Bytes) (headOnly : Bool) : Handler Unit :=
  sendStatus plat (lit "200 OK") (lit "application/json") .server body [] headOnly

/-- The content type of the server's own pages. -/
def htmlType : Bytes := lit "text/html; charset=utf-8"

/-- The content type of plain answers. -/
def plainType : Bytes := lit "text/plain; charset=utf-8"

/-- `send_error_response`. -/
def sendErrorResponse (plat : Platform) (statusCode : Nat) (statusText requestedPage : Bytes)
    (sendBody : Bool) : Handler Unit := do
  let body := errorPage plat statusCode statusText (lit "Requested page: " ++ requestedPage)
  let responseHeader := lit "HTTP/1.1 " ++ toDecimal statusCode ++ lit " " ++ statusText ++ crlf ++
    lit "Content-Type: text/html; charset=utf-8\r\n" ++
    lit "Content-Length: " ++ toDecimal body.length ++ crlf ++ standardHeaders plat
  let sent ← send plat .server responseHeader
  if sent && sendBody then sendIgnored plat .server body else pure ()

/-- `send_basic_auth_prompt`. -/
def sendBasicAuthPrompt (plat : Platform) : Handler Unit :=
  sendIgnored plat .server (lit "HTTP/1.1 401 Unauthorized\r\n" ++
    lit "WWW-Authenticate: Basic realm=\"Restricted\"\r\n" ++ lit "Content-Length: 0\r\n" ++
    standardHeaders plat)

/-- The bytes do not come from the served files. -/
def Origin.isPlain : Origin → Prop
  | .server => True
  | .file _ => False
  | .listing _ => False
  | .command _ => True

/-- The server's own text is plain. -/
theorem server_is_plain : Origin.server.isPlain := trivial

/-- The output of a command is plain. -/
theorem command_is_plain (command : Bytes) : (Origin.command command).isPlain := trivial

/-- The event is none of those that only the router and the static files cause. -/
def PlainEvent : Event → Prop
  | .send origin _ => origin.isPlain
  | .mintSession _ => False
  | .close => False
  | _ => True

section Frames

variable {κ : Type} {keep : Server → κ} {plat : Platform}

/-- Sending emits at most that one event. -/
theorem send_behaves {emits : Event → Prop} {origin : Origin} {data : Bytes}
    (h : emits (.send origin data)) : Behaves emits keep (send plat origin data) :=
  .ite (.bind (.emit h) fun _ => .pure true) (.pure false)

/-- A send whose result is ignored does too. -/
theorem send_ignored_behaves {emits : Event → Prop} {origin : Origin} {data : Bytes}
    (h : emits (.send origin data)) : Behaves emits keep (sendIgnored plat origin data) :=
  .bind (send_behaves h) fun _ => .pure ()

/-- A status response sends its header and its body. -/
theorem send_status_emits {emits : Event → Prop} {origin : Origin}
    {statusCode contentType body extraHeaders : Bytes}
    (hheader : emits (.send .server
      (statusHeader plat statusCode contentType body.length extraHeaders)))
    (hbody : emits (.send origin body)) (headOnly : Bool) :
    Behaves emits keep
      (sendStatus plat statusCode contentType origin body extraHeaders headOnly) :=
  .bind (send_ignored_behaves hheader) fun _ => .ite (send_ignored_behaves hbody) (.pure ())

/-- A status response is plain when its body is. -/
theorem send_status_behaves {origin : Origin} (h : origin.isPlain)
    (statusCode contentType body extraHeaders : Bytes) (headOnly : Bool) :
    Behaves PlainEvent keep
      (sendStatus plat statusCode contentType origin body extraHeaders headOnly) :=
  send_status_emits trivial h headOnly

/-- A JSON response sends the server's own text. -/
theorem send_json_emits {emits : Event → Prop} (h : ∀ data, emits (.send .server data))
    (body : Bytes) (headOnly : Bool) : Behaves emits keep (sendJson plat body headOnly) :=
  send_status_emits (h _) (h _) headOnly

/-- A JSON response is plain. -/
theorem send_json_behaves (body : Bytes) (headOnly : Bool) :
    Behaves PlainEvent keep (sendJson plat body headOnly) :=
  send_status_behaves server_is_plain ..

/-- An error page is sent behind its header. -/
theorem send_error_response_emits {emits : Event → Prop} {statusCode : Nat}
    {statusText requestedPage : Bytes}
    (hheader : ∀ rest, emits (.send .server
      (lit "HTTP/1.1 " ++ toDecimal statusCode ++ lit " " ++ rest)))
    (hbody : emits (.send .server
      (errorPage plat statusCode statusText (lit "Requested page: " ++ requestedPage))))
    (sendBody : Bool) : Behaves emits keep
      (sendErrorResponse plat statusCode statusText requestedPage sendBody) := by
  refine .bind (send_behaves ?_) fun _ => .ite (send_ignored_behaves hbody) (.pure ())
  simpa only [List.append_assoc] using hheader _

/-- An error page is plain. -/
theorem send_error_response_behaves (statusCode : Nat) (statusText requestedPage : Bytes)
    (sendBody : Bool) : Behaves PlainEvent keep
      (sendErrorResponse plat statusCode statusText requestedPage sendBody) :=
  send_error_response_emits (fun _ => trivial) trivial sendBody

/-- The prompt for credentials is plain. -/
theorem send_basic_auth_prompt_behaves : Behaves PlainEvent keep (sendBasicAuthPrompt plat) :=
  send_ignored_behaves trivial

end Frames

end Dvws
