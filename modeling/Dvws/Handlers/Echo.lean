import Dvws.Http.Response

/-!
# The request echo page

`handlers/echo.cpp`: a debug page that reflects the request, open to everybody.
-/

namespace Dvws

open Effect

namespace Echo

/-- One step of `html_escape` in `echo.cpp`. -/
def escapeByte (c : UInt8) : Bytes :=
  if c = 38 then lit "&amp;"
  else if c = 60 then lit "&lt;"
  else if c = 62 then lit "&gt;"
  else if c = 34 then lit "&quot;"
  else [c]

/-- `html_escape` in `echo.cpp`. -/
def htmlEscape (s : Bytes) : Bytes := s.flatMap escapeByte

/-- `kEchoHeaders`, without the colons. -/
def echoHeaders : List Bytes :=
  [lit "Host", lit "User-Agent", lit "Accept", lit "Accept-Encoding", lit "Cookie",
    lit "Connection"]

/-- A row of one of the tables. -/
def row (key value : Bytes) : Bytes :=
  lit "<tr><td>" ++ key ++ lit "</td><td><code>" ++ value ++ lit "</code></td></tr>\n"

/-- The start of a table. -/
def tableHead : Bytes := lit "<table><tr><th>Key</th><th>Value</th></tr>\n"

/-- The page up to its first table. -/
def pageHead : Bytes :=
  lit "<!DOCTYPE html>\n<html lang=\"en\">\n<head>\n<meta charset=\"utf-8\">\n" ++
  lit "<meta name=\"viewport\" content=\"width=device-width, initial-scale=1\">\n" ++
  lit "<title>Request Echo | DVWS</title>\n" ++
  lit "<link rel=\"icon\" href=\"/favicon.ico\" sizes=\"any\">\n" ++
  lit "<link rel=\"stylesheet\" href=\"/static/style.css\">\n</head>\n<body>\n" ++
  lit "<header class=\"site\"><div class=\"container\">\n" ++
  lit "<a class=\"brand\" href=\"/\"><img src=\"/static/logo.svg\" alt=\"\" " ++
  lit "width=\"28\" height=\"28\">Damn Vulnerable Web Server</a>\n" ++
  lit "<nav><a href=\"/\">Home</a><a href=\"/projects.html\">Projects</a>" ++
  lit "<a href=\"/status\">Status</a></nav>\n</div></header>\n" ++
  lit "<main class=\"container\">\n<section class=\"hero\">\n<h1>Request Echo</h1>\n" ++
  lit "<p class=\"lead\">Debug endpoint. This page reports exactly what the " ++
  lit "server sees for the current invocation -- no caching, no filtering.</p>\n" ++
  lit "</section>\n"

/-- The page after its last table. -/
def pageFoot : Bytes :=
  lit "</main>\n<footer class=\"site\"><div class=\"container\">\n" ++
  lit "<p class=\"fingerprint\">debug endpoint -- output is escaped, the " ++
  lit "transport is not &middot; powered by <code>DVWS/1.0</code></p>\n" ++
  lit "</div></footer>\n</body>\n</html>\n"

/-- The table of the query parameters. -/
def parameterTable (params : Params) : Bytes :=
  if params.inOrder = [] then lit "<p class='empty'>(none)</p>\n"
  else tableHead ++
    (params.inOrder.flatMap fun (key, value) => row (htmlEscape key) (htmlEscape value)) ++
    lit "</table>\n"

/-- The rows of the header table. -/
def headerRows (request : Bytes) : List Bytes → Except Exn Bytes
  | [] => .ok []
  | name :: names => do
      let value ← header request name
      let rows ← headerRows request names
      pure (row (htmlEscape name) (htmlEscape value) ++ rows)

/-- The header table is filled without a throw. -/
theorem header_rows_returns (request : Bytes) (names : List Bytes) :
    ∃ rows, headerRows request names = .ok rows := by
  induction names with
  | nil => exact ⟨[], rfl⟩
  | cons name names ih =>
      obtain ⟨rows, hrows⟩ := ih
      obtain ⟨value, hvalue⟩ := extract_header_value_returns request (name ++ lit ":")
      exact ⟨_, by rw [headerRows, header, hvalue, ok_bind, hrows, ok_bind, pure_eq_ok]⟩

end Echo

open Echo in
/-- `echo_request`. -/
def echoRequest (plat : Platform) (req : HttpRequest) : Handler Unit := do
  let params ← lift (extractQueryParameters req.text)
  let headers ← lift (headerRows req.text echoHeaders)
  let helper := match plat.helperPath with
    | some path => htmlEscape (cstr path)
    | none => lit "(not found)"
  let now := localNow plat
  let page := pageHead ++
    lit "<h2>Request</h2>\n" ++ tableHead ++ row (lit "method") (htmlEscape req.method) ++
    row (lit "uri") (htmlEscape req.cleanPath) ++ row (lit "query") (htmlEscape req.query) ++
    lit "</table>\n" ++
    lit "<h2>GET</h2>\n" ++ parameterTable params ++
    lit "<h2>Headers</h2>\n" ++ tableHead ++ headers ++ lit "</table>\n" ++
    lit "<h2>Server</h2>\n" ++ tableHead ++ row (lit "version") serverBanner ++
    row (lit "docroot") (htmlEscape (cstr plat.serverDir)) ++ row (lit "cgi_helper") helper ++
    row (lit "time") (isoDate now ++ lit "T" ++ clockTime now ++
      zoneText (plat.utcOffset plat.time)) ++
    lit "</table>\n" ++ pageFoot
  sendStatus plat (lit "200 OK") htmlType .server page [] (req.method == lit "HEAD")

variable {κ : Type} {keep : Server → κ} {plat : Platform}

/-- The echo page is plain. -/
theorem echo_request_behaves (req : HttpRequest) :
    Behaves PlainEvent keep (echoRequest plat req) := by
  refine .bind (.lift (extract_query_parameters_returns _)) fun params => ?_
  refine .bind (.lift (Echo.header_rows_returns _ _)) fun headers => ?_
  exact send_status_behaves server_is_plain ..

end Dvws
