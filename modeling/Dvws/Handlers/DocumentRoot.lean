import Dvws.Handlers.Revealed

/-!
# The guard of the document root

`serve_static` means to reject what lies outside the document root, but it looks at the path
before it is normalised. That text starts with the document root by construction, so the guard
rejects nothing, and a path that `..` leads out of the document root is handed to `serve_file`
like any other.
-/

namespace Dvws

open Files

namespace StaticFiles

/-- What `serve_static` does with a path: reject it as outside the document root, give up on
resolving it, redirect, or hand the resolved path to `serve_file`. -/
inductive Answer where
  | forbidden
  | unresolved
  | moved
  | file (path : Bytes)
  deriving DecidableEq, Repr

/-- The choice that `serve_static` makes. -/
def answer (plat : Platform) (req : HttpRequest) : Answer :=
  if (cstr plat.serverDir).isPrefixOf (joinedPath plat req.cleanPath) = false then .forbidden
  else if plat.canonicalFails (joinedPath plat req.cleanPath) then .unresolved
  else if lacksSlash plat (requestedFile plat req) && redirectable req.cleanPath then .moved
  else .file (requestedFile plat req)

/-- An answer of `serve_static`. -/
def Answer.perform (plat : Platform) (req : HttpRequest) (cookie : Bytes) : Answer → Handler Unit
  | .forbidden => sendStatus plat (lit "403 Forbidden") htmlType .server
      (errorPage plat 403 (lit "Forbidden")
        (lit "The requested path is outside the document root.")) cookie (req.method == lit "HEAD")
  | .unresolved => sendStatus plat (lit "404 Not Found") htmlType .server
      (errorPage plat 404 (lit "Not Found") (lit "The requested path could not be resolved."))
      cookie (req.method == lit "HEAD")
  | .moved => sendStatus plat (lit "301 Moved Permanently") htmlType .server
      (errorPage plat 301 (lit "Moved Permanently") (lit "The document has moved."))
      (lit "Location: " ++ req.cleanPath ++ lit "/" ++ crlf ++ cookie) (req.method == lit "HEAD")
  | .file path => serveFile plat ⟨path, req.cleanPath, req.text, cookie, req.method == lit "HEAD"⟩

/-- `serve_static` performs its choice. -/
theorem serve_static_eq (plat : Platform) (req : HttpRequest) (cookie : Bytes) :
    serveStatic plat req cookie = (answer plat req).perform plat req cookie := by
  unfold serveStatic answer
  dsimp only
  split
  · rfl
  · split
    · rfl
    · show (if (lacksSlash plat (requestedFile plat req) && redirectable req.cleanPath) = true
        then _ else _) = _
      split
      · rfl
      · rfl

/-- The place of the document root. -/
def documentRoot (plat : Platform) : Location := normalize plat.cwd (cstr plat.serverDir)

/-- The joined path of the request, normalised, is the document root or lies below it. -/
def InDocumentRoot (plat : Platform) (req : HttpRequest) : Prop :=
  documentRoot plat <+: normalize plat.cwd (joinedPath plat req.cleanPath)

instance (plat : Platform) (req : HttpRequest) : Decidable (InDocumentRoot plat req) :=
  inferInstanceAs (Decidable (_ <+: _))

/-- The path is that of the place, with or without a trailing slash. -/
def IsPathOf (path : Bytes) (loc : Location) : Prop := path = render loc ∨ path = render loc ++ [47]

/-- The guard rejects exactly the paths outside the document root, and every path handed to
`serve_file` is that of a place inside. -/
structure GuardIsExact (plat : Platform) (req : HttpRequest) : Prop where
  rejects : answer plat req = .forbidden ↔ ¬ InDocumentRoot plat req
  handsOn : ∀ path, answer plat req = .file path →
    ∃ loc, documentRoot plat <+: loc ∧ IsPathOf path loc

/-- The guard never rejects. -/
theorem not_forbidden (plat : Platform) (req : HttpRequest) : answer plat req ≠ .forbidden := by
  have hinside : (cstr plat.serverDir).isPrefixOf (joinedPath plat req.cleanPath) = true := by
    simp [joinedPath]
  unfold answer
  rw [if_neg (by rw [hinside]; decide)]
  split
  · exact Answer.noConfusion
  · split
    · exact Answer.noConfusion
    · exact Answer.noConfusion

/-- The path that is handed on is that of the place the request resolves to. -/
theorem is_path_of_requested_file (plat : Platform) (req : HttpRequest) :
    IsPathOf (requestedFile plat req) (normalize plat.cwd (joinedPath plat req.cleanPath)) := by
  unfold IsPathOf
  rw [requestedFile, resolved_file_path_eq]
  split
  · exact .inr rfl
  · exact .inl (List.append_nil _)

/-- Only the resolved path of the request is handed on. -/
theorem eq_requested_file_of_answer {plat : Platform} {req : HttpRequest} {path : Bytes}
    (h : answer plat req = .file path) : path = requestedFile plat req := by
  unfold answer at h
  split at h
  · cases h
  · split at h
    · cases h
    · split at h
      · cases h
      · exact (Answer.file.inj h).symm

/-- The guard does what it is there for exactly on the requests it need not reject. -/
theorem guard_is_exact_iff (plat : Platform) (req : HttpRequest) :
    GuardIsExact plat req ↔ InDocumentRoot plat req := by
  constructor
  · intro hexact
    by_contra houtside
    exact not_forbidden plat req (hexact.rejects.mpr houtside)
  · intro hinside
    refine ⟨iff_of_false (not_forbidden plat req) (not_not_intro hinside), fun path hpath => ?_⟩
    obtain rfl := eq_requested_file_of_answer hpath
    exact ⟨_, hinside, is_path_of_requested_file plat req⟩

/-- A request that `..` leads out of the document root. -/
def traversalRequest : HttpRequest :=
  ⟨lit "GET /../etc/passwd HTTP/1.1\r\n\r\n", lit "GET", lit "/../etc/passwd", []⟩

/-- It is what `parse` makes of its text. -/
example : HttpRequest.parse traversalRequest.raw = .ok (true, traversalRequest) := rfl

/-- The path of the traversal lies outside the document root, and is handed on all the same. -/
theorem guard_not_exact_for_traversal : ¬ GuardIsExact .bare traversalRequest ∧
    answer .bare traversalRequest = .file (lit "/etc/passwd") := by
  constructor
  · intro hexact
    have houtside : ¬ InDocumentRoot .bare traversalRequest := by decide +kernel
    exact not_forbidden _ _ (hexact.rejects.mpr houtside)
  · decide +kernel

end StaticFiles

end Dvws
