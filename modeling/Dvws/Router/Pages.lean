import Dvws.Files.Rooted
import Dvws.Handlers.Redirects
import Dvws.Http.PageRequest
import Dvws.Router.Answered

/-!
# Pages

What a client reads off the answer to a GET request for a page is what the file tree has at the
place of the path (`page_shown`): the content of a file that can be read, a redirect for a
directory, or that nothing is there. The router, the resolution of the path, the `stat` calls and
the head of the answer play no part in it.
-/

namespace Dvws

open Effect Files StaticFiles Wire

/-- The path is that of no route. -/
structure IsPagePath (path : Bytes) : Prop where
  notOpen : openRoutes.lookup path = none
  unguarded : isGuarded path = false
  notRule : ¬ lit "/cgi-bin/" <+: path

/-- The file that the static files open for a path. -/
def openedFile (plat : Platform) (cleanPath : Bytes) : Option (Location × Node) :=
  match answer plat ⟨[], [], cleanPath, []⟩ with
  | .file filePath =>
      match target plat filePath with
      | .document path => openRead plat.files plat.cwd path
      | .listing .. => none
  | _ => none

section Server

variable {plat : Platform} {s : Server} {raw : Bytes} {req : HttpRequest} {path : Bytes}

/-- A request for a page receives what the static files send. -/
theorem receives_of_page {good : Bytes → Prop} (hids : plat.Generates)
    (hparse : HttpRequest.parse raw = .ok (true, req)) (hpage : IsPagePath req.cleanPath)
    (hgood : ∀ cookie, IsFields cookie → ∀ s, Receives good (serveStatic plat req cookie) s) :
    Receives good (dispatch plat raw) s := by
  obtain ⟨sessionId, hcookie⟩ := get_session_id_from_cookie_returns req.text
  have hreach : Reaches raw req sessionId := ⟨hparse, hpage.notOpen, hcookie⟩
  have hrule : ¬ RunsRule (counted s) req := fun hrule => hpage.notRule hrule.1
  unfold Receives
  rw [hreach.dispatch_eq, hpage.unguarded, if_neg Bool.false_ne_true]
  exact serve_visitor_receives hids hgood hrule sessionId

/-- The file that is opened for a request is the one for its path. -/
theorem answer_of_opened {loc : Location} {node : Node}
    (h : openedFile plat req.cleanPath = some (loc, node)) :
    ∃ filePath path, answer plat req = .file filePath ∧ target plat filePath = .document path ∧
      openRead plat.files plat.cwd path = some (loc, node) := by
  have hanswer : answer plat ⟨[], [], req.cleanPath, []⟩ = answer plat req := rfl
  unfold openedFile at h
  rw [hanswer] at h
  split at h
  · next filePath hfile =>
    split at h
    · next path hdocument => exact ⟨filePath, path, hfile, hdocument, h⟩
    · cases h
  · cases h

/-- A GET request for a file is answered with it, or that it has not changed. -/
theorem received_of_opened (hplat : plat.Attentive) (hids : plat.Generates)
    (hparse : HttpRequest.parse raw = .ok (true, req)) (hget : req.method = lit "GET")
    (hpage : IsPagePath req.cleanPath) {loc : Location} {content : Bytes} {mtime : Int}
    {readable : Bool}
    (hopened : openedFile plat req.cleanPath = some (loc, .file content mtime readable))
    {ims : Bytes} (hims : extractHeaderValue req.text (lit "If-Modified-Since:") = .ok ims) :
    ∃ path cookie, (∀ field ∈ cookie, field.Clean) ∧ received (dispatch plat raw s).events =
      (if ims = httpDate mtime then notModified plat mtime
        else fileResponse plat path content mtime cookie).render := by
  obtain ⟨filePath, path, hanswer, htarget, hopen⟩ := answer_of_opened hopened
  have hbody : (req.method == lit "HEAD") = false := by
    rw [hget]
    decide
  suffices h : Receives (fun data => ∃ path cookie, (∀ field ∈ cookie, field.Clean) ∧
      data = (if ims = httpDate mtime then notModified plat mtime
        else fileResponse plat path content mtime cookie).render) (dispatch plat raw) s from h
  refine receives_of_page hids hparse hpage fun cookie hcookie s => ?_
  obtain ⟨fields, hclean, hfields⟩ := hcookie
  refine ⟨path, fields, hclean, ?_⟩
  rw [serve_static_eq, hanswer, Answer.perform, serveFile]
  dsimp only
  rw [htarget]
  exact received_of_send_file hplat hbody hfields hopen hims

end Server

/-! ## What the tree has, and what a client is shown -/

/-- What a client is shown for a path. -/
inductive Page where
  | document (content : Bytes)
  | moved
  | missing
  deriving DecidableEq, Repr

/-- What the tree has at a place. -/
def pageAt (tree : FileTree) (loc : Location) : Page :=
  match tree loc with
  | some (.file content _ true) => .document content
  | some (.file _ _ false) => .missing
  | some (.dir ..) => .moved
  | none => .missing

/-- What a client takes the answer for. -/
def shownPage (data : Bytes) : Option Page :=
  match readResponse data with
  | some (response, []) =>
      if response.status = lit "200 OK" then some (.document response.body)
      else if response.status = lit "301 Moved Permanently" then some .moved
      else if response.status = lit "404 Not Found" then some .missing
      else none
  | _ => none

/-- The place of a path in the document root. -/
def pagePlace (plat : Platform) (path : Bytes) : Location :=
  normalize plat.cwd (cstr plat.serverDir ++ 47 :: path)

/-- The client takes what it is sent, sessions are generated, paths can be resolved, and the files
form a tree. -/
structure Serving (plat : Platform) : Prop where
  attentive : plat.Attentive
  generates : plat.Generates
  resolves : ∀ path, plat.canonicalFails path = false
  rooted : Rooted plat.files
  cwd : Proper plat.cwd

/-- The path is that of a page, without a slash, a `.` or a `..` at its end, and not that of the
root of the file system; the path of its place is not cut. -/
structure NamesPage (plat : Platform) (path : Bytes) : Prop where
  plain : PlainPath path
  page : IsPagePath (47 :: path)
  noDirectory : endsInDirectory path = false
  below : pagePlace plat path ≠ []
  fits : (render (pagePlace plat path)).length ≤ 511

section Shown

variable {plat : Platform} {raw path : Bytes} {req : HttpRequest}

/-- Of an answer with status 200 the body is shown. -/
theorem shown_document {response : Response} (h : IsAnswer plat response)
    (hstatus : response.status = lit "200 OK") :
    shownPage response.render = some (.document response.body) := by
  unfold shownPage
  rw [read_response_render h.wellFormed]
  exact if_pos hstatus

/-- An answer with status 301 shows a redirect. -/
theorem shown_moved {response : Response} (h : IsAnswer plat response)
    (hstatus : response.status = lit "301 Moved Permanently") :
    shownPage response.render = some .moved := by
  have hother : ¬ lit "301 Moved Permanently" = lit "200 OK" := by decide
  unfold shownPage
  rw [read_response_render h.wellFormed]
  dsimp only
  rw [hstatus, if_neg hother, if_pos rfl]

/-- An answer with status 404 shows that there is no such page. -/
theorem shown_missing {response : Response} (h : IsAnswer plat response)
    (hstatus : response.status = lit "404 Not Found") :
    shownPage response.render = some .missing := by
  have hother : ¬ lit "404 Not Found" = lit "200 OK" := by decide
  have hmoved : ¬ lit "404 Not Found" = lit "301 Moved Permanently" := by decide
  unfold shownPage
  rw [read_response_render h.wellFormed]
  dsimp only
  rw [hstatus, if_neg hother, if_neg hmoved, if_pos rfl]

/-- A path whose last name is ordinary does not end in a directory, without a slash at its end. -/
theorem ends_in_directory_of_ordinary
    (hordinary : ∀ name ∈ (components path).getLast?, name ≠ lit "." ∧ name ≠ lit "..")
    (hslash : path.getLast? ≠ some 47) : endsInDirectory path = false := by
  have hdot : (components path).getLast? ≠ some (lit ".") := fun h => (hordinary _ h).1 rfl
  have hup : (components path).getLast? ≠ some (lit "..") := fun h => (hordinary _ h).2 rfl
  unfold endsInDirectory
  rw [decide_eq_false hslash, decide_eq_false hdot, decide_eq_false hup]
  rfl

/-- A joined path ends as the path of the request does. -/
theorem PlainPath.ends_in_directory_join (h : PlainPath path) (front : Bytes) :
    endsInDirectory (front ++ 47 :: path) = endsInDirectory path := by
  obtain ⟨c, rest, hsplit⟩ := List.exists_cons_of_ne_nil h.start.1
  have hc : c ≠ 47 := by
    rintro rfl
    exact h.start.2 (by rw [hsplit]; rfl)
  obtain ⟨name, hname, -⟩ := (exists_mem_components_iff hc).mpr (hsplit ▸ List.mem_cons_self)
  have hlast := List.getLast?_eq_some_getLast (List.ne_nil_of_mem hname)
  unfold endsInDirectory
  rw [List.getLast?_append_cons, List.getLast?_cons_of_ne_nil h.start.1, components_join,
    List.getLast?_append, hlast]
  rfl

/-- The path that is looked at for a page is that of its place. -/
theorem requested_file_of_page (hnames : NamesPage plat path)
    (hclean : req.cleanPath = 47 :: path) :
    requestedFile plat req = render (pagePlace plat path) := by
  have hjoined : joinedPath plat req.cleanPath = cstr plat.serverDir ++ 47 :: path := by
    rw [hclean, joinedPath, if_neg (List.cons_ne_nil _ _), List.append_nil]
  have hnot : endsInDirectory (cstr plat.serverDir ++ 47 :: path) = false := by
    rw [hnames.plain.ends_in_directory_join]
    exact hnames.noDirectory
  have hslash : (cstr plat.serverDir ++ 47 :: path).getLast? ≠ some 47 := by
    intro hlast
    unfold endsInDirectory at hnot
    rw [hlast] at hnot
    cases hnot
  have hkeeps : keepsSlash plat (cstr plat.serverDir ++ 47 :: path) = false := by
    rw [keepsSlash, hnot, Bool.false_and, Bool.or_false]
    exact decide_eq_false hslash
  rw [requestedFile, resolved_file_path_eq, hjoined, if_neg fun h => ?_, List.append_nil, pagePlace]
  exact absurd (hkeeps.symm.trans h.1) Bool.false_ne_true

/-- What `stat` finds there is what the tree has. -/
theorem stat_of_page (hplat : Serving plat) (hnames : NamesPage plat path) :
    stat plat.files plat.cwd (render (pagePlace plat path)) =
      (plat.files (pagePlace plat path)).map fun node => (pagePlace plat path, node) :=
  stat_render hplat.rooted (hplat.cwd.normalize _) hnames.below

/-- Nothing but a directory is opened in place of itself. -/
theorem target_of_no_dir {filePath : Bytes} (hlength : filePath.length ≤ 511)
    (hnodir : ∀ loc node, stat plat.files plat.cwd filePath = some (loc, node) →
      node.isDir = false) : target plat filePath = .document filePath := by
  unfold target
  rw [List.take_of_length_le hlength]
  dsimp only
  split
  · next loc names mtime size readable hstat =>
    have hdir := hnodir _ _ hstat
    cases hdir
  · rfl

/-- The answer with what is not a directory. -/
theorem answer_of_no_dir (hplat : Serving plat) (hnames : NamesPage plat path)
    (hclean : req.cleanPath = 47 :: path)
    (hnodir : ∀ loc node, stat plat.files plat.cwd (render (pagePlace plat path)) =
      some (loc, node) → node.isDir = false) :
    answer plat req = .file (render (pagePlace plat path)) := by
  have hfile := requested_file_of_page hnames hclean
  have hslash : lacksSlash plat (render (pagePlace plat path)) = false := by
    unfold lacksSlash
    rw [Bool.and_eq_false_iff]
    right
    cases hstat : stat plat.files plat.cwd (render (pagePlace plat path)) with
    | none => rfl
    | some found => exact hnodir found.1 found.2 hstat
  rw [answer_of_resolved hplat.resolves, hfile, hslash, Bool.false_and, if_neg Bool.false_ne_true]

/-- A file that can be read is opened. -/
theorem opened_of_stat (hplat : Serving plat) (hnames : NamesPage plat path) {loc : Location}
    {content : Bytes} {mtime : Int}
    (hstat : stat plat.files plat.cwd (render (pagePlace plat path)) =
      some (loc, .file content mtime true)) :
    openedFile plat (47 :: path) = some (loc, .file content mtime true) := by
  have hnodir : ∀ other node, stat plat.files plat.cwd (render (pagePlace plat path)) =
      some (other, node) → node.isDir = false := by
    intro other node hother
    obtain ⟨-, rfl⟩ := Prod.mk.inj (Option.some.inj (hstat.symm.trans hother))
    rfl
  have hclean : (HttpRequest.mk [] [] (47 :: path) []).cleanPath = 47 :: path := rfl
  have hanswer := answer_of_no_dir hplat hnames hclean hnodir
  unfold openedFile
  rw [hanswer]
  dsimp only
  rw [target_of_no_dir hnames.fits hnodir]
  dsimp only
  rw [openRead, hstat]
  rfl

/-- A path that is not opened is missing. -/
theorem shown_of_not_opened (hplat : Serving plat) (hget : (req.method == lit "HEAD") = false)
    {filePath : Bytes} (hanswer : answer plat req = .file filePath)
    (htarget : target plat filePath = .document filePath)
    (hopen : openRead plat.files plat.cwd filePath = none) (cookie : Bytes) (s : Server) :
    Receives (fun data => shownPage data = some .missing) (serveStatic plat req cookie) s := by
  have hline : 13 ∉ toDecimal 404 ++ lit " " ++ lit "Not Found" := by decide
  have hstatus : toDecimal 404 ++ lit " " ++ lit "Not Found" = lit "404 Not Found" := by decide
  rw [serve_static_eq, hanswer, Answer.perform, serveFile]
  dsimp only
  rw [htarget]
  dsimp only
  unfold sendFile
  rw [hopen]
  dsimp only
  rw [hget]
  refine Receives.before ?_ fun _ => log_request_response_unsent ..
  unfold Receives
  rw [Bool.not_false, received_of_error_response hplat.attentive]
  exact shown_missing (status_response_is_answer hline html_type_clean (List.forall_mem_nil _) _)
    hstatus

/-- A directory without a slash behind it is answered with a redirect. -/
theorem shown_of_moved (hplat : Serving plat) (hget : (req.method == lit "HEAD") = false)
    (hanswer : answer plat req = .moved) {cookie : Bytes} (hcookie : IsFields cookie)
    (hclean : 13 ∉ redirectTarget req) (s : Server) :
    Receives (fun data => shownPage data = some .moved) (serveStatic plat req cookie) s := by
  have hstatus : 13 ∉ lit "301 Moved Permanently" := by decide
  have hlocation : lit "Location: " = lit "Location" ++ lit ": " := by decide
  have hfields : IsFields (lit "Location: " ++ redirectTarget req ++ crlf ++ cookie) := by
    rw [hlocation]
    exact hcookie.cons (by decide) hclean
  obtain ⟨fields, hclean, htext⟩ := hfields
  unfold Receives
  rw [serve_static_of_moved hanswer, hget, received_of_status hplat.attentive, htext,
    ← render_status_response]
  exact shown_moved (status_response_is_answer hstatus html_type_clean hclean _) rfl

/-- A plain path can be sent back in a redirect. -/
theorem PlainPath.redirectable (h : PlainPath path) : redirectable (47 :: path) = true := by
  rw [StaticFiles.redirectable, List.all_cons, Bool.and_eq_true]
  refine ⟨by decide, List.all_eq_true.mpr fun c hc => ?_⟩
  obtain ⟨hlow, hhigh, -⟩ := h.bytes c hc
  rw [Bool.and_eq_true, decide_eq_true_eq, decide_eq_true_eq]
  exact ⟨UInt8.le_iff_toNat_le.mpr (Nat.succ_le_of_lt (UInt8.lt_iff_toNat_lt.mp hlow)),
    UInt8.le_iff_toNat_le.mpr (Nat.le_of_lt_succ (UInt8.lt_iff_toNat_lt.mp hhigh))⟩

section Get

variable (hplat : Serving plat) (hnames : NamesPage plat path)
  (hparse : HttpRequest.parse raw = .ok (true, req)) (hmethod : req.method = lit "GET")
  (hclean : req.cleanPath = 47 :: path) (s : Server)

include hplat hnames hparse hmethod hclean

/-- What is no directory and cannot be opened is missing. -/
theorem shown_of_unopened
    (hnodir : ∀ loc node, stat plat.files plat.cwd (render (pagePlace plat path)) =
      some (loc, node) → node.isDir = false)
    (hopen : openRead plat.files plat.cwd (render (pagePlace plat path)) = none) :
    shownPage (received (dispatch plat raw s).events) = some .missing := by
  have hget : (req.method == lit "HEAD") = false := by
    rw [hmethod]
    decide
  have hpage : IsPagePath req.cleanPath := hclean ▸ hnames.page
  show Receives (fun data => shownPage data = some .missing) (dispatch plat raw) s
  exact receives_of_page hplat.generates hparse hpage fun cookie _ s =>
    shown_of_not_opened hplat hget (answer_of_no_dir hplat hnames hclean hnodir)
      (target_of_no_dir hnames.fits hnodir) hopen cookie s

/-- A directory without its slash is somewhere else. -/
theorem shown_of_dir {loc : Location} {node : Node} (hdir : node.isDir = true)
    (hstat : stat plat.files plat.cwd (render (pagePlace plat path)) = some (loc, node)) :
    shownPage (received (dispatch plat raw s).events) = some .moved := by
  have hget : (req.method == lit "HEAD") = false := by
    rw [hmethod]
    decide
  have hpage : IsPagePath req.cleanPath := hclean ▸ hnames.page
  -- the canonical path of a place other than the root ends in a name
  have hslash : lacksSlash plat (render (pagePlace plat path)) = true := by
    unfold lacksSlash
    rw [hstat, Bool.and_eq_true]
    exact ⟨decide_eq_true (getLast_render (hplat.cwd.normalize _) hnames.below), hdir⟩
  have hmoved : answer plat req = .moved := by
    rw [answer_of_resolved hplat.resolves, requested_file_of_page hnames hclean, hslash, hclean,
      hnames.plain.redirectable]
    rfl
  have hlocation : 13 ∉ redirectTarget req := by
    have hend : (13 : UInt8) ∉ lit "/" := by decide
    rw [redirectTarget, hclean, List.mem_append, not_or, List.mem_cons, not_or]
    exact ⟨⟨by decide, hnames.plain.not_mem (by decide)⟩, hend⟩
  show Receives (fun data => shownPage data = some .moved) (dispatch plat raw) s
  exact receives_of_page hplat.generates hparse hpage fun cookie hcookie s =>
    shown_of_moved hplat hget hmoved hcookie hlocation s

/-- A file that can be read is shown, unless the request has a date to compare. -/
theorem shown_of_file {loc : Location} {content : Bytes} {mtime : Int}
    (hims : extractHeaderValue req.text (lit "If-Modified-Since:") = .ok [])
    (hstat : stat plat.files plat.cwd (render (pagePlace plat path)) =
      some (loc, .file content mtime true)) :
    shownPage (received (dispatch plat raw s).events) = some (.document content) := by
  have hpage : IsPagePath req.cleanPath := hclean ▸ hnames.page
  have hopened : openedFile plat req.cleanPath = some (loc, .file content mtime true) := by
    rw [hclean]
    exact opened_of_stat hplat hnames hstat
  obtain ⟨filePath, cookie, hcookie, hreceived⟩ := received_of_opened (s := s)
    hplat.attentive hplat.generates hparse hmethod hpage hopened hims
  -- no date is empty, so that the lookup of a field that is not there finds no copy
  have hother : ¬ [] = httpDate mtime := by
    obtain ⟨-, first, rest, hdate, -⟩ := printable_http_date mtime
    rw [hdate]
    exact (List.cons_ne_nil _ _).symm
  rw [if_neg hother] at hreceived
  rw [hreceived]
  exact shown_document (file_response_is_answer hcookie ..) rfl

/-- A GET request for a path, with no copy to compare, is answered with what the tree has there. -/
theorem shown_of_get (hims : extractHeaderValue req.text (lit "If-Modified-Since:") = .ok []) :
    shownPage (received (dispatch plat raw s).events) =
      some (pageAt plat.files (pagePlace plat path)) := by
  have hstat := stat_of_page hplat hnames
  have hmissing := shown_of_unopened hplat hnames hparse hmethod hclean s
  unfold pageAt
  cases hthere : plat.files (pagePlace plat path) with
  | none =>
      rw [hthere, Option.map_none] at hstat
      refine hmissing (fun loc node hfound => ?_) (by rw [openRead, hstat]; rfl)
      rw [hstat] at hfound
      cases hfound
  | some node =>
      rw [hthere, Option.map_some] at hstat
      cases node with
      | dir => exact shown_of_dir hplat hnames hparse hmethod hclean s rfl hstat
      | file content mtime readable =>
          cases readable with
          | false =>
              refine hmissing (fun loc node hfound => ?_) (by rw [openRead, hstat]; rfl)
              obtain ⟨-, rfl⟩ := Prod.mk.inj (Option.some.inj (hstat.symm.trans hfound))
              rfl
          | true => exact shown_of_file hplat hnames hparse hmethod hclean s hims hstat

end Get

end Shown

end Dvws
