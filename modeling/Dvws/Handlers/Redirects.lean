import Dvws.Files.Rendering
import Dvws.Handlers.DocumentRoot
import Dvws.Http.Normalisation

/-!
# Where a redirect leads

`serve_static` redirects a path that names a directory to the same path with a slash behind it. A
GET request for that target is parsed again, which drops one slash in front of the path and puts it
back through `temp_path`, and resolved again. `serve_file` then gets the path of the directory with
a slash behind it, and copies it into the 511 bytes of `resolved_path`. `Converges` says that the
directory is served in the end.
-/

namespace Dvws

open Files HttpRequest Text

namespace StaticFiles

/-- Where `serve_static` sends a request that it redirects. -/
def redirectTarget (req : HttpRequest) : Bytes := req.cleanPath ++ lit "/"

/-- A GET request for it, up to the version. -/
def followUp (req : HttpRequest) (tail : Bytes) : Bytes :=
  lit "GET " ++ redirectTarget req ++ lit " HTTP/" ++ tail

/-- The place of the index document of a directory. -/
def indexPlace (loc : Location) : Location := loc ++ [lit "index.html"]

/-- `serve_file` answers a path with a listing of the directory or with its index document. -/
def ShowsDirectory (plat : Platform) (path : Bytes) (loc : Location) : Prop :=
  match target plat path with
  | .listing resolvedPath found => found = loc ∧ listedNames plat resolvedPath ≠ none
  | .document resolvedPath => ∃ node,
      openRead plat.files plat.cwd resolvedPath = some (indexPlace loc, node)

/-- The place that a request names. -/
def requestedPlace (plat : Platform) (req : HttpRequest) : Location :=
  normalize plat.cwd (requestedFile plat req)

/-- A GET request for the target of the redirect fits `clean_path`, and is answered with the
directory that the redirected request names. -/
def Converges (plat : Platform) (req : HttpRequest) (plat' : Platform) (tail : Bytes) : Prop :=
  ∃ copied followed path, TargetText (cstr (followUp req tail)) (lit "GET") copied ∧
    copied.length < 200 ∧ parse (followUp req tail) = .ok (true, followed) ∧
    answer plat' followed = .file path ∧ ShowsDirectory plat' path (requestedPlace plat req)

/-- The document root, the working directory and the files are the same. -/
structure SameFiles (plat plat' : Platform) : Prop where
  serverDir : plat'.serverDir = plat.serverDir
  cwd : plat'.cwd = plat.cwd
  files : plat'.files = plat.files

/-- `temp_path` has room for the path with a slash behind it, or is not used. -/
def LeavesRoom (req : HttpRequest) : Prop :=
  req.cleanPath.length ≤ 198 ∨ lit "//" <+: req.cleanPath

/-- The directory has a readable index document, and `resolved_path` room for its path; or it has
none and is readable itself, and there is room for its own path. -/
def ShowsWhole (plat : Platform) (req : HttpRequest) : Prop :=
  match plat.files (indexPlace (requestedPlace plat req)) with
  | some (.file _ _ readable) => (requestedFile plat req).length ≤ 500 ∧ readable = true
  | _ => (requestedFile plat req).length ≤ 511 ∧ listedNames plat (requestedFile plat req) ≠ none

section Directory

variable {plat : Platform} {path : Bytes} {loc : Location} {node : Node}

/-- The name of an index document is that of a file. -/
theorem proper_index : Proper [lit "index.html"] := by
  constructor
  · intro name hname
    obtain rfl := List.mem_singleton.mp hname
    exact ⟨by decide, by decide⟩
  · intro name hname
    obtain rfl := List.mem_singleton.mp hname
    decide

/-- A path that is cut short leads to no place with a path longer than the cut. -/
theorem normalize_take_ne {count : Nat} (habs : path.head? = some 47) (hcount : 0 < count)
    (hlong : count < (render loc).length) (cwd : Location) :
    normalize cwd (path.take count) ≠ loc := by
  rintro rfl
  have hstart : (path.take count).head? = some 47 := by
    rw [List.head?_take, if_neg (by omega), habs]
  have hshort := length_render_normalize_le hstart cwd
  have htake := List.length_take_le count path
  omega

/-- The path of an index document is the path of its directory, with or without a slash, and its
name. -/
theorem index_candidate_eq {resolvedPath : Bytes} (hlength : path.length ≤ 511)
    (hslash : path.getLast? ≠ some 47)
    (h : resolvedPath = path ∨ resolvedPath = path ++ [47]) :
    indexCandidate resolvedPath = path ++ 47 :: lit "index.html" := by
  have hindex : (lit "index.html").length = 10 := rfl
  have hwhole : (path ++ 47 :: lit "index.html").take 599 = path ++ 47 :: lit "index.html" := by
    refine List.take_of_length_le ?_
    rw [List.length_append, List.length_cons]
    omega
  rcases h with rfl | rfl
  · rw [indexCandidate, if_neg hslash]
    simpa using hwhole
  · rw [indexCandidate, if_pos (by simp)]
    simpa using hwhole

/-- With a slash behind it, the path of a directory is cut to a path of the directory as long as
its own path fits. -/
theorem take_append_slash (hlength : path.length ≤ 511) :
    (path ++ [47]).take 511 = path ∨ (path ++ [47]).take 511 = path ++ [47] := by
  rcases Nat.lt_or_ge path.length 511 with hroom | hfull
  · right
    refine List.take_of_length_le ?_
    rw [List.length_append, List.length_singleton]
    omega
  · left
    rw [show 511 = path.length by omega, List.take_left]

/-- A directory that fits is listed when it has no index document. -/
theorem shows_directory_of_fits (hstat : stat plat.files plat.cwd path = some (loc, node))
    (hdir : node.isDir = true) (hslash : path.getLast? ≠ some 47) (hlength : path.length ≤ 511) :
    ShowsDirectory plat (path ++ [47]) loc ↔
      match plat.files (indexPlace loc) with
      | some (.file ..) => ∃ found, openRead plat.files plat.cwd
          ((path ++ 47 :: lit "index.html").take 511) = some (indexPlace loc, found)
      | _ => listedNames plat path ≠ none := by
  have hresolved : stat plat.files plat.cwd ((path ++ [47]).take 511) = some (loc, node) := by
    rcases take_append_slash hlength with htake | htake
    · rw [htake, hstat]
    · rw [htake, stat_append_slash hstat hdir]
  have hopen : openRead plat.files plat.cwd ((path ++ [47]).take 511) =
      openRead plat.files plat.cwd path := by
    rw [openRead, openRead, hresolved, hstat]
  have hindex : stat plat.files plat.cwd (indexCandidate ((path ++ [47]).take 511)) =
      (plat.files (indexPlace loc)).map fun found => (indexPlace loc, found) := by
    rw [index_candidate_eq hlength hslash (take_append_slash hlength),
      stat_entry hstat hdir proper_index]
    rfl
  have hlisted : listedNames plat ((path ++ [47]).take 511) = listedNames plat path := by
    rw [listedNames, listedNames, hopen]
  cases node with
  | file => cases hdir
  | dir names mtime size readable =>
      unfold ShowsDirectory target
      dsimp only
      rw [hresolved]
      dsimp only
      rw [hindex]
      cases hentry : plat.files (indexPlace loc) with
      | none => simp [hlisted]
      | some entry =>
          cases entry with
          | dir => simp [hlisted]
          | file => simp [index_candidate_eq hlength hslash (take_append_slash hlength)]

/-- The path of the index document is longer than that of the directory. -/
theorem length_render_index (hslash : (render loc).getLast? ≠ some 47) :
    render (indexPlace loc) = render loc ++ 47 :: lit "index.html" ∧
      (render (indexPlace loc)).length = (render loc).length + 11 := by
  have hne : loc ≠ [] := by
    rintro rfl
    exact hslash rfl
  have hrender : render (indexPlace loc) = render loc ++ 47 :: lit "index.html" :=
    render_entry hne _
  refine ⟨hrender, ?_⟩
  rw [hrender, List.length_append, List.length_cons]
  rfl

/-- What is opened is where the path leads. -/
theorem normalize_of_open {tree : FileTree} {cwd : Location} {found : Node}
    (h : openRead tree cwd path = some (loc, found)) : normalize cwd path = loc :=
  (stat_location (stat_of_open_read h).1).symm

/-- A directory with a longer path is not shown. -/
theorem not_shows_directory_of_long (hslash : (render loc).getLast? ≠ some 47)
    (hlength : 511 < (render loc).length) : ¬ ShowsDirectory plat (render loc ++ [47]) loc := by
  have htake : (render loc ++ [47]).take 511 = (render loc).take 511 :=
    List.take_append_of_le_length hlength.le
  have hfull : ((render loc).take 511).length = 511 := List.length_take_of_le hlength.le
  have hcandidate : (indexCandidate ((render loc).take 511)).take 511 = (render loc).take 511 := by
    rw [indexCandidate, List.take_take, List.append_assoc]
    exact List.take_left' hfull
  have hdirectory := normalize_take_ne (head_render loc) (by decide) hlength plat.cwd
  have hindex : normalize plat.cwd ((render loc).take 511) ≠ indexPlace loc := by
    have hlong := (length_render_index hslash).2
    exact normalize_take_ne (head_render loc) (by decide) (by omega) plat.cwd
  intro hshows
  unfold ShowsDirectory at hshows
  have hcases := target_cases plat (render loc ++ [47])
  rw [htake, hcandidate] at hcases
  rcases hcases with htarget | htarget | htarget
  · rw [htarget] at hshows
    exact hdirectory hshows.1
  · rw [htarget] at hshows
    obtain ⟨found, hopen⟩ := hshows
    exact hindex (normalize_of_open hopen)
  · rw [htarget] at hshows
    obtain ⟨found, hopen⟩ := hshows
    exact hindex (normalize_of_open hopen)

/-- The index document is opened when its path fits and it is readable. -/
theorem open_index_iff (hstat : stat plat.files plat.cwd (render loc) = some (loc, node))
    (hdir : node.isDir = true) (hslash : (render loc).getLast? ≠ some 47) {content : Bytes}
    {mtime : Int} {readable : Bool}
    (hentry : plat.files (indexPlace loc) = some (.file content mtime readable)) :
    (∃ found, openRead plat.files plat.cwd ((render loc ++ 47 :: lit "index.html").take 511) =
      some (indexPlace loc, found)) ↔ (render loc).length ≤ 500 ∧ readable = true := by
  obtain ⟨hrender, hlong⟩ := length_render_index hslash
  have hindex : stat plat.files plat.cwd (render loc ++ 47 :: lit "index.html") =
      some (indexPlace loc, .file content mtime readable) := by
    rw [stat_entry hstat hdir proper_index, ← indexPlace, hentry, Option.map_some]
  rw [← hrender] at hindex ⊢
  rcases Nat.lt_or_ge 500 (render loc).length with hover | hfits
  · refine iff_of_false (fun hopened => ?_) (by omega)
    obtain ⟨found, hopen⟩ := hopened
    exact normalize_take_ne (head_render _) (by decide) (by omega) plat.cwd
      (normalize_of_open hopen)
  · rw [List.take_of_length_le (by omega), openRead, hindex, and_iff_right hfits]
    cases readable <;> simp [Option.filter, Node.readable]

/-- A directory is shown behind its slash exactly when the paths that are needed fit and what they
name is readable. -/
theorem shows_directory_iff (hstat : stat plat.files plat.cwd (render loc) = some (loc, node))
    (hdir : node.isDir = true) (hslash : (render loc).getLast? ≠ some 47) :
    ShowsDirectory plat (render loc ++ [47]) loc ↔
      match plat.files (indexPlace loc) with
      | some (.file _ _ readable) => (render loc).length ≤ 500 ∧ readable = true
      | _ => (render loc).length ≤ 511 ∧ listedNames plat (render loc) ≠ none := by
  rcases Nat.lt_or_ge 511 (render loc).length with hover | hfits
  · refine iff_of_false (not_shows_directory_of_long hslash hover) ?_
    split
    · exact fun h => by omega
    · exact fun h => by omega
  · rw [shows_directory_of_fits hstat hdir hslash hfits]
    cases hentry : plat.files (indexPlace loc) with
    | none => exact (and_iff_right hfits).symm
    | some entry =>
        cases entry with
        | dir => exact (and_iff_right hfits).symm
        | file => exact open_index_iff hstat hdir hslash hentry

end Directory

section Follow

variable {plat plat' : Platform} {req followed : HttpRequest} {rest tail : Bytes}

/-- A redirected path names a directory, ends in no slash and can be written in a header. -/
theorem facts_of_moved (h : answer plat req = .moved) :
    lacksSlash plat (requestedFile plat req) = true ∧ redirectable req.cleanPath = true := by
  unfold answer at h
  split at h
  · cases h
  · split at h
    · cases h
    · split at h
      · rename_i hmoved
        exact Bool.and_eq_true_iff.mp hmoved
      · cases h

/-- A directory request without a slash is answered with its redirect. -/
theorem serve_static_of_moved (h : answer plat req = .moved) (cookie : Bytes) :
    serveStatic plat req cookie =
      sendStatus plat (lit "301 Moved Permanently") htmlType .server
        (errorPage plat 301 (lit "Moved Permanently") (lit "The document has moved."))
        (lit "Location: " ++ redirectTarget req ++ crlf ++ cookie) (req.method == lit "HEAD") := by
  rw [serve_static_eq, h, redirectTarget, ← List.append_assoc (lit "Location: ")]
  rfl

/-- What is answered when every path can be resolved. -/
theorem answer_of_resolved (hresolved : ∀ path, plat.canonicalFails path = false)
    (req : HttpRequest) : answer plat req =
      if lacksSlash plat (requestedFile plat req) && redirectable req.cleanPath then .moved
      else .file (requestedFile plat req) := by
  have hinside : (cstr plat.serverDir).isPrefixOf (joinedPath plat req.cleanPath) = true := by
    simp [joinedPath]
  unfold answer
  rw [if_neg (by rw [hinside]; decide), hresolved]
  rfl

/-- A path that is resolved without a slash behind it is that of a place. -/
theorem resolved_file_path_of_no_slash {joined : Bytes}
    (h : (resolvedFilePath plat joined).getLast? ≠ some 47) :
    joined.getLast? ≠ some 47 ∧
      resolvedFilePath plat joined = render (normalize plat.cwd joined) := by
  rw [resolved_file_path_eq] at h ⊢
  split
  · rename_i hrestored
    rw [if_pos hrestored] at h
    exact absurd List.getLast?_concat h
  · rename_i hkept
    rw [if_neg hkept, List.append_nil] at h
    refine ⟨fun hjoined => hkept ⟨?_, h⟩, List.append_nil _⟩
    exact keeps_slash_of_slash hjoined

/-- With a slash behind it, the path of a place is resolved to the same with a slash. -/
theorem resolved_file_path_of_slash {joined : Bytes} (hjoined : joined.getLast? = some 47)
    (hslash : (render (normalize plat.cwd joined)).getLast? ≠ some 47) :
    resolvedFilePath plat joined = render (normalize plat.cwd joined) ++ [47] := by
  rw [resolved_file_path_eq, if_pos ⟨keeps_slash_of_slash hjoined, hslash⟩]

/-- A path that lacks its slash is that of a directory. -/
theorem facts_of_lacks_slash {path : Bytes} (h : lacksSlash plat path = true) :
    path.getLast? ≠ some 47 ∧
      ∃ loc node, stat plat.files plat.cwd path = some (loc, node) ∧ node.isDir = true := by
  obtain ⟨hlast, hfound⟩ := Bool.and_eq_true_iff.mp h
  refine ⟨of_decide_eq_true hlast, ?_⟩
  cases hstat : stat plat.files plat.cwd path with
  | none =>
      rw [hstat] at hfound
      cases hfound
  | some found =>
      rw [hstat] at hfound
      exact ⟨found.1, found.2, rfl, hfound⟩

/-- A redirected path is not empty and ends in no slash. -/
theorem clean_path_of_moved (hparse : (req.cleanPath = [] ∨ req.cleanPath.head? = some 47))
    (hjoined : (joinedPath plat req.cleanPath).getLast? ≠ some 47) :
    ∃ rest, req.cleanPath = 47 :: rest ∧ rest ≠ [] := by
  have hne : req.cleanPath ≠ [] := by
    intro hnil
    rw [joinedPath, if_pos hnil] at hjoined
    exact hjoined List.getLast?_concat
  obtain ⟨rest, hrest⟩ := List.head?_eq_some_iff.mp (hparse.resolve_left hne)
  refine ⟨rest, hrest, ?_⟩
  rintro rfl
  rw [joinedPath, if_neg hne, List.append_nil, hrest] at hjoined
  exact hjoined List.getLast?_concat

/-- A path is joined to the same place with a slash behind it. -/
theorem joined_append_slash (hne : req.cleanPath ≠ []) (hpath : followed.cleanPath =
    req.cleanPath ++ [47]) :
    (joinedPath plat followed.cleanPath).getLast? = some 47 ∧
      normalize plat.cwd (joinedPath plat followed.cleanPath) =
        normalize plat.cwd (joinedPath plat req.cleanPath) := by
  have hjoined : joinedPath plat followed.cleanPath = joinedPath plat req.cleanPath ++ [47] := by
    rw [joinedPath, joinedPath, hpath, if_neg hne, if_neg (by simp)]
    simp
  rw [hjoined]
  refine ⟨List.getLast?_concat, normalize_append_slash ?_ plat.cwd⟩
  simp [joinedPath, hne]

/-- With one slash less in front and one at the end, a target leads to the place where the doubled
slash led. -/
theorem joined_drop_slash (hreq : req.cleanPath = 47 :: 47 :: rest)
    (hpath : followed.cleanPath = 47 :: rest ++ [47]) :
    (joinedPath plat followed.cleanPath).getLast? = some 47 ∧
      normalize plat.cwd (joinedPath plat followed.cleanPath) =
        normalize plat.cwd (joinedPath plat req.cleanPath) := by
  have hjoined : joinedPath plat followed.cleanPath =
      (cstr plat.serverDir ++ 47 :: rest) ++ [47] := by
    rw [joinedPath, hpath, if_neg (by simp)]
    simp
  have hfirst : joinedPath plat req.cleanPath = cstr plat.serverDir ++ 47 :: 47 :: rest := by
    rw [joinedPath, hreq, if_neg (by simp), List.append_nil]
  rw [hjoined, hfirst, normalize_double_slash]
  exact ⟨List.getLast?_concat, normalize_append_slash (by simp) plat.cwd⟩

/-- The target of a redirect is read back up to its first slash. -/
theorem target_text_of_follow_up (hreq : req.cleanPath = 47 :: rest)
    (hwritten : redirectable req.cleanPath = true) :
    TargetText (cstr (followUp req tail)) (lit "GET") (rest ++ [47]) := by
  have hprintable (c : UInt8) (hc : c ∈ rest) : 33 ≤ c ∧ c ≤ 126 := by
    have hall := List.all_eq_true.mp hwritten c (by rw [hreq]; exact List.mem_cons_of_mem _ hc)
    simpa using hall
  have hzero : (0 : UInt8) ∉ rest := fun hmem => absurd (hprintable 0 hmem).1 (by decide)
  have hspace : (32 : UInt8) ∉ rest := fun hmem => absurd (hprintable 32 hmem).1 (by decide)
  have htext : followUp req tail =
      (lit "GET" ++ [32, 47] ++ (rest ++ [47] ++ lit " HTTP/")) ++ tail := by
    rw [followUp, redirectTarget, hreq]
    simp [show lit "GET " = lit "GET" ++ [32] from rfl, show lit "/" = [47] from rfl]
  have hfront : (0 : UInt8) ∉ lit "GET" ++ [32, 47] ++ (rest ++ [47] ++ lit " HTTP/") := by
    have hget : (0 : UInt8) ∉ lit "GET" := by decide
    have hversion : (0 : UInt8) ∉ lit " HTTP/" := by decide
    simp [hzero, hget, hversion]
  have hread : cstr (followUp req tail) =
      lit "GET" ++ [32, 47] ++ (rest ++ [47] ++ lit " HTTP/" ++ cstr tail) := by
    rw [htext, cstr_append hfront, List.append_assoc]
  exact target_text_of_get hread (by simp [hspace])

/-- The path of the second request is that of the first with a slash behind it and one of two in
front of it dropped, or the first 198 bytes of it behind a slash. -/
theorem parse_follow_up (htarget : TargetText (cstr (followUp req tail)) (lit "GET") (rest ++ [47]))
    (hne : rest ≠ []) (hquery : 63 ∉ rest) (hcopied : (rest ++ [47]).length < cleanPathSize) :
    ∃ followed, parse (followUp req tail) = .ok (true, followed) ∧ followed.cleanPath =
      if rest.head? = some 47 then rest ++ [47] else 47 :: (rest ++ [47]).take 198 := by
  have hpath : pathOf (rest ++ [47]) = rest ++ [47] := path_of_not_mem (by simp [hquery])
  have hhead : (rest ++ [47]).head? = rest.head? := List.head?_append_of_ne_nil rest hne
  have hslice : targetSlice (lit "GET") (47 :: (rest ++ [47])) = rest ++ [47] :=
    if_neg (by decide)
  have hparse := parse_of_target_text htarget
  rw [hslice] at hparse
  refine ⟨_, hparse.trans (copy_target_of_fits hcopied _), ?_⟩
  rw [set_target_clean_path, hpath, hhead]
  by_cases hslash : rest.head? = some 47
  · rw [if_pos hslash, if_neg fun h => h.2 hslash]
  · rw [if_neg hslash, if_pos ⟨by simp, hslash⟩]
    rfl

/-- Room for the slash is room for one more byte, unless there are two slashes in front. -/
theorem length_of_room (hreq : req.cleanPath = 47 :: rest) (hroom : LeavesRoom req)
    (hhead : rest.head? ≠ some 47) : rest.length + 1 ≤ 198 := by
  rcases hroom with hshort | hslashes
  · rw [hreq] at hshort
    exact hshort
  · rw [hreq] at hslashes
    obtain ⟨more, hmore⟩ := hslashes
    rw [← (List.cons.inj hmore).2] at hhead
    exact absurd rfl hhead

/-- If there is room for the slash, the second path is joined to the same place with a slash behind
it. -/
theorem joined_of_room (hreq : req.cleanPath = 47 :: rest) (hroom : LeavesRoom req)
    (hfollowed : followed.cleanPath =
      if rest.head? = some 47 then rest ++ [47] else 47 :: (rest ++ [47]).take 198) :
    (joinedPath plat followed.cleanPath).getLast? = some 47 ∧
      normalize plat.cwd (joinedPath plat followed.cleanPath) =
        normalize plat.cwd (joinedPath plat req.cleanPath) := by
  by_cases hdouble : rest.head? = some 47
  · obtain ⟨more, rfl⟩ := List.head?_eq_some_iff.mp hdouble
    rw [if_pos hdouble] at hfollowed
    exact joined_drop_slash hreq hfollowed
  · have hlength : (rest ++ [47]).length ≤ 198 := by
      simpa using length_of_room hreq hroom hdouble
    rw [if_neg hdouble, List.take_of_length_le hlength] at hfollowed
    refine joined_append_slash (by rw [hreq]; exact List.cons_ne_nil _ _) ?_
    rw [hfollowed, hreq, List.cons_append]

/-- The second request is answered with the path of the directory and a slash behind it. -/
theorem answer_of_room (hresolved : ∀ path, plat.canonicalFails path = false)
    (hlacks : lacksSlash plat (requestedFile plat req) = true)
    (hreq : req.cleanPath = 47 :: rest) (hroom : LeavesRoom req)
    (hfollowed : followed.cleanPath =
      if rest.head? = some 47 then rest ++ [47] else 47 :: (rest ++ [47]).take 198) :
    answer plat followed = .file (requestedFile plat req ++ [47]) := by
  obtain ⟨hslash, -⟩ := facts_of_lacks_slash hlacks
  obtain ⟨-, hrender⟩ := resolved_file_path_of_no_slash hslash
  obtain ⟨hjoined, hplace⟩ := joined_of_room hreq hroom hfollowed
  have hfile : requestedFile plat followed = requestedFile plat req ++ [47] := by
    rw [requestedFile, resolved_file_path_of_slash hjoined, hplace, ← hrender, ← requestedFile]
    rw [hplace, ← hrender]
    exact hslash
  have hdirect : lacksSlash plat (requestedFile plat req ++ [47]) = false := by
    simp [lacksSlash]
  rw [answer_of_resolved hresolved, hfile, hdirect]
  rfl

/-- A redirect that leaves no room for the slash is followed to the same redirect. -/
theorem answer_of_no_room (hresolved : ∀ path, plat.canonicalFails path = false)
    (hmoved : answer plat req = .moved) (hfits : req.cleanPath.length ≤ 199)
    (hreq : req.cleanPath = 47 :: rest) (hroom : ¬ LeavesRoom req)
    (hfollowed : followed.cleanPath =
      if rest.head? = some 47 then rest ++ [47] else 47 :: (rest ++ [47]).take 198) :
    answer plat followed = .moved := by
  obtain ⟨hlong, hdouble⟩ := not_or.mp hroom
  have hhead : rest.head? ≠ some 47 := by
    intro hhead
    obtain ⟨more, rfl⟩ := List.head?_eq_some_iff.mp hhead
    refine hdouble ?_
    rw [hreq]
    exact ⟨more, rfl⟩
  have hlength : rest.length = 198 := by
    rw [hreq, List.length_cons] at hlong hfits
    omega
  have hpath : followed.cleanPath = req.cleanPath := by
    rw [hfollowed, if_neg hhead, ← hlength, List.take_left, hreq]
  have hfile : requestedFile plat followed = requestedFile plat req := by
    rw [requestedFile, requestedFile, hpath]
  rw [answer_of_resolved hresolved, hfile, hpath, ← answer_of_resolved hresolved]
  exact hmoved

/-- What is shown of the directory that a redirected request names. -/
theorem shows_requested_iff (hcwd : Proper plat.cwd)
    (hlacks : lacksSlash plat (requestedFile plat req) = true) :
    ShowsDirectory plat (requestedFile plat req ++ [47]) (requestedPlace plat req) ↔
      ShowsWhole plat req := by
  obtain ⟨hslash, loc, node, hstat, hdir⟩ := facts_of_lacks_slash hlacks
  obtain ⟨-, hrender⟩ := resolved_file_path_of_no_slash hslash
  have hplace : requestedFile plat req = render (requestedPlace plat req) := by
    rw [requestedPlace, requestedFile, hrender, normalize_render (hcwd.normalize _)]
  obtain rfl : loc = requestedPlace plat req := stat_location hstat
  rw [hplace] at hstat hslash ⊢
  rw [ShowsWhole, hplace]
  exact shows_directory_iff hstat hdir hslash

/-- On one platform, a redirect leads to its directory exactly when there is room for the slash and
for the paths of the directory. -/
theorem converges_iff_of_resolved {raw : Bytes} (hparse : parse raw = .ok (true, req))
    (hfits : req.cleanPath.length ≤ 199) (hcwd : Proper plat.cwd)
    (hresolved : ∀ path, plat.canonicalFails path = false) (hmoved : answer plat req = .moved)
    (tail : Bytes) : Converges plat req plat tail ↔ LeavesRoom req ∧ ShowsWhole plat req := by
  obtain ⟨hhead, hquery⟩ := clean_path_of_parse hparse
  obtain ⟨hlacks, hwritten⟩ := facts_of_moved hmoved
  obtain ⟨hslash, -⟩ := facts_of_lacks_slash hlacks
  obtain ⟨rest, hreq, hne⟩ := clean_path_of_moved hhead (resolved_file_path_of_no_slash hslash).1
  have hshows := shows_requested_iff hcwd hlacks
  have hrest : (63 : UInt8) ∉ rest := fun hmem => hquery (by rw [hreq]; exact .tail _ hmem)
  have htarget : TargetText (cstr (followUp req tail)) (lit "GET") (rest ++ [47]) :=
    target_text_of_follow_up hreq hwritten
  have hcopied : (rest ++ [47]).length < cleanPathSize := by
    rw [hreq, List.length_cons] at hfits
    rw [List.length_append, List.length_singleton]
    exact Nat.lt_succ_of_le hfits
  obtain ⟨followed, hfollow, hpath⟩ := parse_follow_up htarget hne hrest hcopied
  constructor
  · intro hconverges
    obtain ⟨copied, again, path, -, -, hparsed, hanswer, hdirectory⟩ := hconverges
    obtain ⟨-, rfl⟩ := Prod.mk.inj (Except.ok.inj (hfollow.symm.trans hparsed))
    by_cases hroom : LeavesRoom req
    · rw [answer_of_room hresolved hlacks hreq hroom hpath] at hanswer
      obtain rfl := Answer.file.inj hanswer
      exact ⟨hroom, hshows.mp hdirectory⟩
    · rw [answer_of_no_room hresolved hmoved hfits hreq hroom hpath] at hanswer
      cases hanswer
  · intro hkept
    obtain ⟨hroom, hwhole⟩ := hkept
    exact ⟨_, followed, _, htarget, hcopied, hfollow,
      answer_of_room hresolved hlacks hreq hroom hpath, hshows.mpr hwhole⟩

/-- The path that a request is resolved to depends on the document root, the working directory and
the files alone. -/
theorem SameFiles.requested_file (h : SameFiles plat plat') (req : HttpRequest) :
    requestedFile plat' req = requestedFile plat req := by
  unfold requestedFile resolvedFilePath weaklyCanonical joinedPath
  rw [h.serverDir, h.cwd, h.files]

/-- A redirect leads to its directory exactly when `temp_path` has room for the slash and
`resolved_path` for the paths of the directory, and what is served of it is readable. -/
theorem converges_iff {raw : Bytes} (hparse : parse raw = .ok (true, req))
    (hfits : req.cleanPath.length ≤ 199) (hmoved : answer plat req = .moved)
    (hcwd : Proper plat.cwd) (hsame : SameFiles plat plat')
    (hresolved : ∀ path, plat'.canonicalFails path = false) (tail : Bytes) :
    Converges plat req plat' tail ↔ LeavesRoom req ∧ ShowsWhole plat req := by
  obtain ⟨hlacks, hwritten⟩ := facts_of_moved hmoved
  have hfile := hsame.requested_file req
  have hplace : requestedPlace plat' req = requestedPlace plat req := by
    rw [requestedPlace, requestedPlace, hfile, hsame.cwd]
  have hmoved' : answer plat' req = .moved := by
    have hlacks' : lacksSlash plat' (requestedFile plat' req) = true := by
      rw [lacksSlash, hfile, hsame.files, hsame.cwd]
      exact hlacks
    rw [answer_of_resolved hresolved, hlacks', hwritten]
    rfl
  have hlisted : listedNames plat' (requestedFile plat req) =
      listedNames plat (requestedFile plat req) := by
    rw [listedNames, listedNames, hsame.files, hsame.cwd]
  have hwhole : ShowsWhole plat' req ↔ ShowsWhole plat req := by
    rw [ShowsWhole, ShowsWhole, hplace, hfile, hsame.files, hlisted]
  have hcwd' : Proper plat'.cwd := by
    rw [hsame.cwd]
    exact hcwd
  have hone := converges_iff_of_resolved hparse hfits hcwd' hresolved hmoved' tail
  rw [Converges, hplace] at hone
  rw [Converges, hone, hwhole]

/-- A disk where every name is that of an empty directory. -/
def allDirectories : Platform :=
  { Platform.bare with files := fun _ => some (.dir [] 0 4096 true) }

/-- A request for a directory. -/
def docsRequest : HttpRequest :=
  ⟨lit "GET /docs HTTP/1.1\r\n\r\n", lit "GET", lit "/docs", []⟩

/-- The redirect of a directory leads to its listing. -/
theorem converges_iff_docs :
    Converges allDirectories docsRequest allDirectories (lit "1.1\r\n\r\n") := by
  have hparse : parse docsRequest.raw = .ok (true, docsRequest) := rfl
  have hcwd : Proper allDirectories.cwd :=
    ⟨fun name hname => absurd hname List.not_mem_nil,
      fun name hname => absurd hname List.not_mem_nil⟩
  refine (converges_iff hparse (by decide) (by decide +kernel) hcwd ⟨rfl, rfl, rfl⟩ (fun _ => rfl)
    (lit "1.1\r\n\r\n")).mpr ⟨Or.inl (by decide), ?_, ?_⟩
  · decide +kernel
  · decide +kernel

/-- A request for a directory with a path of 199 bytes. -/
def longPathRequest : HttpRequest :=
  ⟨lit "GET /" ++ List.replicate 198 97 ++ lit " HTTP/1.1\r\n\r\n", lit "GET",
    47 :: List.replicate 198 97, []⟩

/-- A redirect whose slash is cut off again leads to itself, for ever. -/
theorem not_converges_long_path :
    parse longPathRequest.raw = .ok (true, longPathRequest) ∧
      answer allDirectories longPathRequest = .moved ∧
      ¬ Converges allDirectories longPathRequest allDirectories (lit "1.1\r\n\r\n") := by
  have hfollow : parse (followUp longPathRequest (lit "1.1\r\n\r\n")) = .ok (true,
      { longPathRequest with raw := followUp longPathRequest (lit "1.1\r\n\r\n") }) := by
    decide +kernel
  refine ⟨by decide +kernel, by decide +kernel, fun hconverges => ?_⟩
  obtain ⟨copied, followed, path, -, -, hparsed, hanswer, -⟩ := hconverges
  obtain ⟨-, rfl⟩ := Prod.mk.inj (Except.ok.inj (hfollow.symm.trans hparsed))
  have hagain : answer allDirectories
      { longPathRequest with raw := followUp longPathRequest (lit "1.1\r\n\r\n") } = .moved := by
    decide +kernel
  rw [hagain] at hanswer
  cases hanswer

end Follow

end StaticFiles

end Dvws
