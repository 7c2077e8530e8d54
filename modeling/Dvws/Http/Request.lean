import Dvws.Bytes

/-!
# Parsing a request

`HttpRequest.parse` after `http/request.cpp`. It looks for one of three method markers anywhere
in the text (`sniffMethod`), takes the target up to the next `" HTTP/"`, and falls back to
`extractMethodToken`, which reads the request line, when either search fails.

The target is copied into the 200-byte `clean_path` without a look at its length (`copyTarget`). A
target of 200 bytes or more runs on into the string object behind the buffer, which the code goes on
to assign and to destroy: the model ends there, with `Exn.overrun`.
-/

namespace Dvws

/-- `struct HttpRequest`. `raw` is the buffer the request was received into. -/
structure HttpRequest where
  raw : Bytes
  method : Bytes
  cleanPath : Bytes
  query : Bytes
  deriving DecidableEq, Repr

namespace HttpRequest

/-- The request text, as every `const char*` or `std::string` use of `raw` reads it. -/
def text (req : HttpRequest) : Bytes := cstr req.raw

/-- A request object before parsing, with `raw` already set. -/
def empty (raw : Bytes) : HttpRequest := ⟨raw, [], [], []⟩

end HttpRequest

/-- `s.compare(pos, count, other) == 0`, which throws like `substr`. -/
def compareAt (s : Bytes) (pos count : Nat) (other : Bytes) : Except Exn Bool := do
  let part ← substr s pos (some count)
  pure (part == other)

/-- A comparison that starts inside its string does not throw. -/
theorem compareAt_of_le {s other : Bytes} {pos count : Nat} (h : pos ≤ s.length) :
    compareAt s pos count other = .ok ((s.drop pos).take count == other) := by
  simp [compareAt, substr_of_le h]

/-- `strcpy` into a buffer of this size, which has to hold the NUL as well. -/
def strcpy (size : Nat) (source : Bytes) : Except Exn Bytes :=
  if source.length < size then .ok source else .error .overrun

/-- The first line of a text, without its CRLF. -/
def firstLine (raw : Bytes) : Bytes :=
  match Text.find (lit "\r\n") raw with
  | some eol => raw.take eol
  | none => raw

/-- `extract_method_token`: the method token of a request line `TOKEN SP target SP HTTP/x`, or
the empty string when the line has another shape. -/
def extractMethodToken (raw : Bytes) : Except Exn Bytes := do
  let line := firstLine raw
  match Text.find (lit " ") line with
  | none => pure []
  | some sp1 =>
      if sp1 = 0 then pure [] else
      match findFrom line (lit " ") (sp1 + 1) with
      | none => pure []
      | some sp2 =>
          if !(← compareAt line (sp2 + 1) 5 (lit "HTTP/")) then pure []
          -- at least one version digit
          else if line.length ≤ sp2 + 6 then pure []
          else substr line 0 (some sp1)

/-- The method markers in the order in which `parse` looks for them: the method, the text
searched for, and `method_offset`. -/
def methodMarkers : List (Bytes × Bytes × Nat) :=
  [(lit "GET", lit "GET /", 5), (lit "POST", lit "POST /", 6), (lit "HEAD", lit "HEAD /", 5)]

/-- The first marker of the list that occurs in the request: its method, `path_start` as a
position, and `method_offset`. -/
def sniffMethod (request : Bytes) : List (Bytes × Bytes × Nat) → Option (Bytes × Nat × Nat)
  | [] => none
  | (method, marker, offset) :: rest =>
      match Text.find marker request with
      | some pathStart => some (method, pathStart, offset)
      | none => sniffMethod request rest

namespace HttpRequest

/-- The tail of `parse`: split off the query at the first `?`, and put a `/` in front of a nonempty
path that lacks one (through the 200-byte `temp_path`, which keeps at most 198 bytes of it). -/
def setTarget (out : HttpRequest) (pathWithQuery : Bytes) : HttpRequest :=
  let (path, query) :=
    match Text.find (lit "?") pathWithQuery with
    | some qmark => (pathWithQuery.take qmark, pathWithQuery.drop (qmark + 1))
    | none => (pathWithQuery, out.query)
  let path :=
    if path ≠ [] ∧ path.head? ≠ some 47 then lit "/" ++ path.take 198 else path
  { out with cleanPath := path, query := query }

/-- `sizeof(clean_path)`. -/
def cleanPathSize : Nat := 200

/-- The copy of the target into `clean_path`, and what is made of it there. -/
def copyTarget (out : HttpRequest) (pathWithQuery : Bytes) : Except Exn (Bool × HttpRequest) := do
  let cleanPath ← strcpy cleanPathSize pathWithQuery
  pure (true, setTarget out cleanPath)

/-- `HttpRequest::parse`: whether the request was accepted, and the object it filled. After a
rejection `method` is the token of a well-formed request line, or empty. -/
def parse (rawRequest : Bytes) : Except Exn (Bool × HttpRequest) := do
  let out := empty rawRequest
  let requestCopy := cstr rawRequest
  match sniffMethod requestCopy methodMarkers with
  | none =>
      let token ← extractMethodToken requestCopy
      pure (false, { out with method := token })
  | some (method, pathStart, methodOffset) =>
      match Text.find (lit " HTTP/") (requestCopy.drop pathStart) with
      | none =>
          let token ← extractMethodToken requestCopy
          pure (false, { out with method := token })
      | some pathEnd =>
          let pathWithQuery := ((requestCopy.drop pathStart).take pathEnd).drop methodOffset
          copyTarget { out with method := method } pathWithQuery

end HttpRequest

end Dvws
