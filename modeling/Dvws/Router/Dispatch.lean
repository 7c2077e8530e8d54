import Dvws.Handlers.Cgi
import Dvws.Handlers.Deploy
import Dvws.Handlers.Echo
import Dvws.Handlers.StaticFiles
import Dvws.Handlers.Status
import Dvws.Sessions

/-!
# The router

`dispatch` of `router.cpp`: parse the request, route it to its handler, close the socket. The
admin area is guarded by a comparison of the path with `"/admin/"`; a request that passes it and
names no admin route goes on to the rules and the static files like any other.
-/

namespace Dvws

open Effect

/-- `authenticate`. -/
def authenticate (username password : Bytes) : Bool :=
  username == lit "admin" && password == lit "admin"

/-- The credentials are those of the administrator. -/
def areValid (credentials : Option (Bytes × Bytes)) : Bool :=
  credentials.any fun pair => authenticate pair.1 pair.2

/-- `require_basic_auth`. -/
def requireBasicAuth (plat : Platform) (req : HttpRequest) : Handler Bool := do
  let auth ← lift (header req.text (lit "Authorization"))
  let credentials ← lift (suppliedCredentials plat.malloc auth)
  if areValid credentials then pure true
  else do
    sendBasicAuthPrompt plat
    pure false

/-- The path of the route that works on the credentials themselves. -/
def whoamiPath : Bytes := lit "/whoami"

/-- The prefix of the admin area. -/
def adminPrefix : Bytes := lit "/admin/"

/-- The request is for an authenticated route. -/
def isGuarded (cleanPath : Bytes) : Bool :=
  adminPrefix.isPrefixOf cleanPath || cleanPath == whoamiPath

/-- `kAdminRoutes`. -/
def adminRoutes : List (Bytes × (Platform → HttpRequest → Handler Unit)) :=
  [(lit "/admin/system_status", systemStatus), (lit "/admin/upload_file", uploadFile),
    (lit "/admin/add_rule", addRule), (lit "/admin/update_rule", updateRule),
    (lit "/admin/logging", logging), (lit "/admin/deploy_site", deploySite),
    (whoamiPath, whoami)]

/-- The session is taken as authenticated: not on the `/whoami` route, and not without an ID. -/
def isAdmitted (s : Server) (req : HttpRequest) (sessionId : Bytes) : Bool :=
  req.cleanPath != whoamiPath && sessionId != [] &&
    getSessionData s sessionId == authenticatedData

/-- Mark an existing session as authenticated. -/
def markAuthenticated (mark : Bool) (sessionId : Bytes) : Handler Unit :=
  if mark then modify fun s => setSessionData s sessionId authenticatedData else pure ()

/-- The value of `authorized`: an authenticated session is admitted directly, otherwise the
credentials decide. -/
def authorize (plat : Platform) (req : HttpRequest) (sessionId : Bytes) : Handler Bool := do
  let server ← get
  if isAdmitted server req sessionId then pure true
  else do
    let passed ← requireBasicAuth plat req
    markAuthenticated (passed && req.cleanPath != whoamiPath && sessionId != []) sessionId
    pure passed

/-- Close the client's socket. -/
def closeSocket : Handler Unit := emit .close

/-- The header that hands a minted session to the client. -/
def setCookieHeader (sessionId : Bytes) : Bytes :=
  lit "Set-Cookie: session_id=" ++ sessionId ++ lit "; HttpOnly; Path=/\r\n"

/-- Store a fresh session and name it to the client. -/
def mintSession (plat : Platform) : Handler Bytes := do
  let sessionId := generateSessionId plat
  emit (.mintSession sessionId)
  modify fun s => setSessionData s sessionId defaultData
  pure (setCookieHeader sessionId)

/-- The static files, with a minted session for a visitor who brings none. -/
def serveFiles (plat : Platform) (req : HttpRequest) (sessionId : Bytes) : Handler Unit :=
  if sessionId = [] then do
    let cookie ← mintSession plat
    serveStatic plat req cookie
    closeSocket
  else do
    serveStatic plat req []
    closeSocket

/-- The end of `dispatch`: rules, then static files. -/
def serveVisitor (plat : Platform) (req : HttpRequest) (sessionId : Bytes) : Handler Unit := do
  let handled ← cgiDispatch plat req
  if handled then closeSocket else serveFiles plat req sessionId

/-- The authenticated routes. -/
def serveGuarded (plat : Platform) (req : HttpRequest) (sessionId : Bytes) : Handler Unit := do
  let authorized ← authorize plat req sessionId
  if authorized then
    match adminRoutes.lookup req.cleanPath with
    | some handler => do
        handler plat req
        closeSocket
    | none => serveVisitor plat req sessionId
  else closeSocket

/-- The answer to a request that `parse` rejects. -/
def rejectRequest (plat : Platform) (req : HttpRequest) : Handler Unit :=
  if req.method ≠ [] then
    sendStatus plat (lit "405 Method Not Allowed") htmlType .server
      (errorPage plat 405 (lit "Method Not Allowed")
        (lit "This server supports GET, POST and HEAD requests only."))
      (lit "Allow: GET, POST, HEAD\r\n") false
  else
    sendStatus plat (lit "400 Bad Request") htmlType .server
      (errorPage plat 400 (lit "Bad Request")
        (lit "The request line could not be understood by the server.")) [] false

/-- The routes that `dispatch` serves before it looks at the session. -/
def openRoutes : List (Bytes × (Platform → HttpRequest → Handler Unit)) :=
  [(lit "/status", status), (lit "/logs", fun plat req => handleLogViewer plat req.text),
    (lit "/echo", echoRequest),
    (lit "/cgi-helper", fun plat req =>
      handleCgiHelper plat req.text (req.method != lit "HEAD"))]

/-- The part of `dispatch` behind the open routes. -/
def serveSession (plat : Platform) (req : HttpRequest) : Handler Unit := do
  let sessionId ← lift (getSessionIdFromCookie req.text)
  if isGuarded req.cleanPath then serveGuarded plat req sessionId
  else serveVisitor plat req sessionId

/-- The part of `dispatch` for an accepted request. -/
def serveAccepted (plat : Platform) (req : HttpRequest) : Handler Unit := do
  statusBumpRequestCounter
  match openRoutes.lookup req.cleanPath with
  | some handler => do
      handler plat req
      closeSocket
  | none => serveSession plat req

/-- `dispatch(client_socket, raw)`. -/
def dispatch (plat : Platform) (raw : Bytes) : Handler Unit := do
  let parsed ← lift (HttpRequest.parse raw)
  if parsed.1 then serveAccepted plat parsed.2
  else do
    rejectRequest plat parsed.2
    closeSocket

end Dvws
