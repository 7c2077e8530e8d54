import Dvws.Calendar
import Dvws.Effect.Exec
import Dvws.Files.Tree
import Dvws.Http.Request
import Dvws.Utils

/-!
# The server's state, its surroundings, and its actions

`Server` holds the process-wide variables that requests read and write. `Platform` is everything
a request meets and does not own: the configuration, the files, the clock, the results of system
calls, and the memory next to its buffers. `Event` is what a request does to the outside. A
handler is a computation over `Server` that emits `Event`s.
-/

namespace Dvws

open Effect Files

/-- `RouteType`. -/
inductive RouteType where
  | static
  | cgi
  deriving DecidableEq, Repr

/-- The objects in `cgi_rules()`, by class: `StaticRoute` and `CgiRoute`. -/
inductive Route where
  | static (path directory : Bytes)
  | cgi (path executable : Bytes)
  deriving DecidableEq, Repr

/-- `Route::path`. -/
def Route.path : Route → Bytes
  | .static path _ => path
  | .cgi path _ => path

/-- What `static_cast<CgiRoute*>(rule)->executable` reads. `directory` and `executable` are the
first member after `path` in their classes, so a `StaticRoute` yields its directory. -/
def Route.executable : Route → Bytes
  | .static _ directory => directory
  | .cgi _ executable => executable

/-- The class the object was created with, as the tag that describes it. -/
def Route.type : Route → RouteType
  | .static _ _ => .static
  | .cgi _ _ => .cgi

/-- The class of a log sink. -/
inductive SinkKind where
  | file
  | syslog
  deriving DecidableEq, Repr

/-- A sink object; `id` numbers the allocations. -/
structure Sink where
  id : Nat
  kind : SinkKind
  deriving DecidableEq, Repr

/-- The process-wide variables: `sessions`, `cgi_rules()`, `route_types()`, `g_sink` and
`g_request_count`. `sinksMade` counts the sinks allocated. -/
structure Server where
  sessions : AList fun _ : Bytes => Bytes
  cgiRules : List Route
  routeTypes : AList fun _ : Bytes => RouteType
  sink : Option Sink
  sinksMade : Nat
  requestCount : Nat

/-- The variables when the process starts. -/
def Server.init : Server := ⟨∅, [], ∅, none, 0, 0⟩

/-- An archive entry as the ZIP reader presents it. No name stands for an unreadable directory
record, no data for an entry that cannot be extracted. -/
structure ZipEntry where
  name : Option Bytes
  data : Option Bytes
  deriving DecidableEq, Repr

/-- The surroundings of one request. -/
structure Platform where
  /-- `g_config.server_dir`, the document root -/
  serverDir : Bytes
  /-- `g_config.port` -/
  port : Int
  /-- the working directory -/
  cwd : Location
  /-- the files, without symbolic links -/
  files : FileTree
  /-- `std::time(nullptr)` -/
  time : Int
  /-- the offset of the local time zone at a time, in seconds -/
  utcOffset : Int → Int
  /-- the seconds since the server started -/
  uptime : Int
  /-- `getpid()` -/
  pid : Nat
  /-- `generate_session_id` as a function of the clock and the process identity -/
  sessionId : Int → Nat → Bytes
  /-- `get_cgi_helper_path()` -/
  helperPath : Option Bytes
  /-- the output of a shell command, or `none` when `popen` fails -/
  popen : Bytes → Option Bytes
  /-- whether an allocation of this size succeeds -/
  malloc : Nat → Bool
  /-- whether the client takes these bytes -/
  sendOk : Bytes → Bool
  /-- whether a file of this path may be opened for writing, or a directory be made there -/
  canCreate : Bytes → Bool
  /-- how many of these bytes `fwrite` stores in the file of this path -/
  stored : Bytes → Bytes → Nat
  /-- whether `weakly_canonical` reports an error for this path -/
  canonicalFails : Bytes → Bool
  /-- `mz_zip_reader_init_mem` and the entries it gives access to -/
  zipReader : Bytes → Option (List ZipEntry)
  /-- the previous contents of the `int` that `url_decode` reads into, by position -/
  uninit : Nat → Int
  /-- the previous contents of the 128-byte record of `whoami` -/
  leftover : Nat → UInt8
  /-- the memory behind the request buffer, by offset from the start of the buffer -/
  beyond : Nat → UInt8
  /-- how many bytes of the stack are behind it -/
  stackBehind : Nat

/-- The surroundings of a server with document root `/srv` on an empty disk at the start of time,
where sends, allocations and writes succeed and no command can be run. -/
def Platform.bare : Platform where
  serverDir := lit "/srv"
  port := 8080
  cwd := []
  files := fun _ => none
  time := 0
  utcOffset := fun _ => 0
  uptime := 0
  pid := 1
  sessionId := fun _ _ => lit "1"
  helperPath := none
  popen := fun _ => none
  malloc := fun _ => true
  sendOk := fun _ => true
  canCreate := fun _ => true
  stored := fun _ data => data.length
  canonicalFails := fun _ => false
  zipReader := fun _ => none
  uninit := fun _ => 0
  leftover := fun _ => 0
  beyond := fun _ => 0
  stackBehind := 0

/-- Where the bytes of an answer come from: the server's own text, a file, a directory listing,
or the output of a command. -/
inductive Origin where
  | server
  | file (loc : Location)
  | listing (loc : Location)
  | command (command : Bytes)
  deriving DecidableEq, Repr

/-- A piece of a log entry: a text, or a text that `fprintf` takes as its format. -/
inductive LogPiece where
  | text (bytes : Bytes)
  | format (bytes : Bytes)
  deriving DecidableEq, Repr

/-- What a request does to the outside. `send` is a call that the client's end accepts; `receive`
and `decodeStatus` write to a heap buffer of the given capacity. -/
inductive Event where
  | send (origin : Origin) (data : Bytes)
  | receive (capacity length : Nat)
  | decodeStatus (capacity : Nat) (message : Bytes)
  | popen (command : Bytes)
  | makeDir (path : Bytes)
  | writeFile (path data : Bytes)
  | changeMode (path : Bytes)
  | removeFile (path : Bytes)
  | renameFile (source target : Bytes)
  | appendLog (pieces : List LogPiece)
  | enqueueLog (sink : Sink) (timestamp message : Bytes)
  | installSink (sink : Sink)
  | deleteSink (sink : Sink)
  | mintSession (id : Bytes)
  | close
  deriving DecidableEq, Repr

/-- A computation of the server. -/
abbrev Handler (α : Type) := Exec Server Event Exn α

/-- `send(client_socket, data, ...)`; `false` is a negative result. -/
def send (plat : Platform) (origin : Origin) (data : Bytes) : Handler Bool :=
  if plat.sendOk data then do
    emit (.send origin data)
    pure true
  else pure false

/-- A `send` whose result is ignored. -/
def sendIgnored (plat : Platform) (origin : Origin) (data : Bytes) : Handler Unit := do
  let _ ← send plat origin data
  pure ()

/-- The local time now. -/
def localNow (plat : Platform) : Tm := gmtime (plat.time + plat.utcOffset plat.time)

end Dvws
