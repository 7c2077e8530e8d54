import Dvws.Http.Response

/-!
# The status document

`handlers/status.cpp`: a JSON document about the server, open to everybody.
-/

namespace Dvws

open Effect

/-- A lower-case hexadecimal digit. -/
def hexDigit (n : Nat) : UInt8 := UInt8.ofNat (if n < 10 then 48 + n else 87 + n)

/-- One step of `json_escape`. -/
def jsonEscapeByte (c : UInt8) : Bytes :=
  if c = 34 ∨ c = 92 then [92, c]
  else if c < 32 then lit "\\u00" ++ [hexDigit (c.toNat / 16), hexDigit (c.toNat % 16)]
  else [c]

/-- `json_escape`. -/
def jsonEscape (s : Bytes) : Bytes := (cstr s).flatMap jsonEscapeByte

/-- `status_bump_request_counter`. -/
def statusBumpRequestCounter : Handler Unit :=
  modify fun s => { s with requestCount := s.requestCount + 1 }

/-- `status`. -/
def status (plat : Platform) (req : HttpRequest) : Handler Unit := do
  let server ← get
  let helperJson := match plat.helperPath with
    | some path => lit "\"" ++ jsonEscape path ++ lit "\""
    | none => lit "null"
  let body := lit "\x7b\n  \"service\": \"damn-vulnerable-web-server\",\n" ++
    lit "  \"version\": \"" ++ serverBanner ++ lit "\",\n" ++
    lit "  \"docroot\": \"" ++ jsonEscape plat.serverDir ++ lit "\",\n" ++
    lit "  \"cgi_helper\": " ++ helperJson ++ lit ",\n" ++
    lit "  \"uptime_seconds\": " ++ lit (toString plat.uptime) ++ lit ",\n" ++
    lit "  \"requests_handled\": " ++ toDecimal server.requestCount ++ lit ",\n" ++
    lit "  \"warning\": \"intentionally-vulnerable-do-not-expose-publicly\"\n\x7d\n"
  sendStatus plat (lit "200 OK") (lit "application/json") .server body []
    (req.method == lit "HEAD")

variable {κ : Type} {keep : Server → κ} {plat : Platform}

/-- The status document is plain. -/
theorem status_behaves (req : HttpRequest) : Behaves PlainEvent keep (status plat req) :=
  .bind .get fun _ => send_status_behaves server_is_plain ..

end Dvws
