import Dvws.Handlers.Listing
import Dvws.Router.Pages

/-!
# Listings

A client that asks for a directory without an index document, and follows the links of what it is
sent, finds the entries of the directory in the file tree: each of them once, in order, with a slash
behind the directories, and the directory above (`listing_shown`).
-/

namespace Dvws

open Effect Files StaticFiles Wire

/-- The links that a client finds in the answer. -/
def shownLinks (data : Bytes) : Option (List Bytes) :=
  match readResponse data with
  | some (response, []) =>
      if response.status = lit "200 OK" then some (links response.body) else none
  | _ => none

/-- The link to an entry of the directory at a place: a slash is behind that to a directory. -/
def entryLink (tree : FileTree) (loc : Location) (name : Bytes) : Bytes :=
  name ++ if tree.isDir (enter loc name) then [47] else []

/-- The path, with a slash behind it, is that of a directory below the root of the file system that
can be read, has entries of these names and no index document; the path of its place is not cut. -/
structure NamesListing (plat : Platform) (path : Bytes) (names : List Bytes) : Prop where
  plain : PlainPath (path ++ [47])
  page : IsPagePath (47 :: (path ++ [47]))
  below : pagePlace plat path ≠ []
  fits : (render (pagePlace plat path)).length ≤ 510
  there : ∃ mtime size, plat.files (pagePlace plat path) = some (.dir names mtime size true)
  entries : ∀ name ∈ names, Proper [name]
  noIndex : ∀ content mtime readable,
    plat.files (indexPlace (pagePlace plat path)) ≠ some (.file content mtime readable)

section Shown

variable {plat : Platform} {path : Bytes} {names : List Bytes} {req : HttpRequest}

/-- Of an answer with status 200 the links of its body are shown. -/
theorem shown_links {response : Response} (h : IsAnswer plat response)
    (hstatus : response.status = lit "200 OK") :
    shownLinks response.render = some (links response.body) := by
  unfold shownLinks
  rw [read_response_render h.wellFormed]
  exact if_pos hstatus

/-- `stat` finds the directory that a listing is named for. -/
theorem NamesListing.stat (hnames : NamesListing plat path names) (hplat : Serving plat) :
    ∃ mtime size, stat plat.files plat.cwd (render (pagePlace plat path)) =
      some (pagePlace plat path, .dir names mtime size true) := by
  obtain ⟨mtime, size, hthere⟩ := hnames.there
  have hproper : Proper (pagePlace plat path) := hplat.cwd.normalize _
  refine ⟨mtime, size, ?_⟩
  rw [stat_render hplat.rooted hproper hnames.below, hthere, Option.map_some]

/-- `stat` finds the directory with a slash behind its path, too. -/
theorem NamesListing.stat_slash (hnames : NamesListing plat path names) (hplat : Serving plat) :
    ∃ mtime size, Files.stat plat.files plat.cwd (render (pagePlace plat path) ++ [47]) =
      some (pagePlace plat path, .dir names mtime size true) := by
  obtain ⟨mtime, size, hstat⟩ := hnames.stat hplat
  exact ⟨mtime, size, stat_append_slash hstat rfl⟩

/-- The directory is asked for by its canonical path, with a slash behind it. -/
theorem NamesListing.answer_eq (hnames : NamesListing plat path names) (hplat : Serving plat)
    (hclean : req.cleanPath = 47 :: (path ++ [47])) :
    answer plat req = .file (render (pagePlace plat path) ++ [47]) := by
  have hproper : Proper (pagePlace plat path) := hplat.cwd.normalize _
  have hjoined : joinedPath plat req.cleanPath = cstr plat.serverDir ++ 47 :: path ++ [47] := by
    rw [hclean, joinedPath, if_neg (List.cons_ne_nil _ _), List.append_nil, List.append_assoc,
      List.cons_append]
  have hplace : normalize plat.cwd (cstr plat.serverDir ++ 47 :: path ++ [47]) =
      pagePlace plat path :=
    normalize_append_slash (by simp) plat.cwd
  have hlast : (render (pagePlace plat path)).getLast? ≠ some 47 :=
    getLast_render hproper hnames.below
  have hfile : requestedFile plat req = render (pagePlace plat path) ++ [47] := by
    have hkeeps : keepsSlash plat (cstr plat.serverDir ++ 47 :: path ++ [47]) = true :=
      keeps_slash_of_slash List.getLast?_concat
    rw [requestedFile, resolved_file_path_eq, hjoined, hplace, if_pos ⟨hkeeps, hlast⟩]
  have hslash : lacksSlash plat (render (pagePlace plat path) ++ [47]) = false := by
    rw [lacksSlash, List.getLast?_concat]
    rfl
  rw [answer_of_resolved hplat.resolves, hfile, hslash, Bool.false_and, if_neg Bool.false_ne_true]

/-- A directory without an index is answered with its listing. -/
theorem NamesListing.target_eq (hnames : NamesListing plat path names) (hplat : Serving plat) :
    target plat (render (pagePlace plat path) ++ [47]) =
      .listing (render (pagePlace plat path) ++ [47]) (pagePlace plat path) := by
  obtain ⟨mtime, size, hstat⟩ := hnames.stat hplat
  obtain ⟨mtime', size', hslash⟩ := hnames.stat_slash hplat
  have hfits := hnames.fits
  -- `resolved_path` has room for the path with its slash, and `candidate` for the index document
  have hwhole : (render (pagePlace plat path) ++ [47]).take 511 =
      render (pagePlace plat path) ++ [47] := by
    refine List.take_of_length_le ?_
    rw [List.length_append, List.length_singleton]
    omega
  have hcandidate : indexCandidate (render (pagePlace plat path) ++ [47]) =
      render (pagePlace plat path) ++ 47 :: lit "index.html" := by
    have hlength : (lit "index.html").length = 10 := by decide
    rw [indexCandidate, List.getLast?_concat, if_pos rfl, List.append_nil, List.append_assoc]
    refine List.take_of_length_le ?_
    rw [List.length_append, List.length_append, List.length_singleton, hlength]
    omega
  have hindex : Files.stat plat.files plat.cwd
      (indexCandidate (render (pagePlace plat path) ++ [47])) =
        (plat.files (indexPlace (pagePlace plat path))).map fun found =>
          (indexPlace (pagePlace plat path), found) := by
    rw [hcandidate]
    exact stat_entry hstat rfl proper_index
  unfold target
  rw [hwhole]
  dsimp only
  rw [hslash, hindex]
  cases hthere : plat.files (indexPlace (pagePlace plat path)) with
  | none => rfl
  | some node =>
      cases node with
      | file content mtime readable => exact absurd hthere (hnames.noIndex content mtime readable)
      | dir => rfl

/-- The names that are listed: those of the directory and of the one above it, in order. -/
theorem NamesListing.listed (hnames : NamesListing plat path names) (hplat : Serving plat) :
    ∃ listed : List Bytes, listed.Perm (lit ".." :: names) ∧ listed.Pairwise (· ≤ ·) ∧
      listedNames plat (render (pagePlace plat path) ++ [47]) = some listed := by
  obtain ⟨mtime, size, hslash⟩ := hnames.stat_slash hplat
  refine ⟨_, List.mergeSort_perm _ fun a b => decide (a ≤ b), ?_, ?_⟩
  · have htrans (a b c : Bytes) (hab : decide (a ≤ b) = true) (hbc : decide (b ≤ c) = true) :
        decide (a ≤ c) = true :=
      decide_eq_true (List.le_trans (of_decide_eq_true hab) (of_decide_eq_true hbc))
    have htotal (a b : Bytes) : (decide (a ≤ b) || decide (b ≤ a)) = true := by
      rw [Bool.or_eq_true, decide_eq_true_eq, decide_eq_true_eq]
      exact List.le_total a b
    have hsorted := List.pairwise_mergeSort htrans htotal (lit ".." :: names)
    exact hsorted.imp fun h => of_decide_eq_true h
  · unfold listedNames
    rw [openRead, hslash]
    rfl

/-- The line of a name shows whether a directory is there. -/
theorem NamesListing.displayed_eq (hnames : NamesListing plat path names) (hplat : Serving plat)
    {name : Bytes} (hname : name ∈ lit ".." :: names) :
    displayed plat (render (pagePlace plat path) ++ [47]) name =
      entryLink plat.files (pagePlace plat path) name := by
  obtain ⟨mtime, size, hstat⟩ := hnames.stat hplat
  have hsingle : components name = [name] := by
    obtain rfl | hname := List.mem_cons.mp hname
    · decide
    · exact (hnames.entries name hname).single name (List.mem_singleton_self name)
  unfold displayed entryLink
  rw [List.getLast?_concat, if_pos rfl]
  dsimp only
  rw [List.append_nil, List.append_assoc, List.singleton_append, stat_enter hstat rfl hsingle,
    Option.any_map]
  rfl

/-- A client of a directory finds links to its entries. -/
theorem listing_shown (hplat : Serving plat) (hnames : NamesListing plat path names) (s : Server) :
    ∃ listed : List Bytes, listed.Perm (lit ".." :: names) ∧ listed.Pairwise (· ≤ ·) ∧
      shownLinks (received (dispatch plat (pageText (path ++ [47]) []) s).events) =
        some (listed.map (entryLink plat.files (pagePlace plat path))) := by
  obtain ⟨req, hparse, hmethod, hclean, -⟩ := parse_bare_page hnames.plain
  obtain ⟨listed, hperm, hsorted, hlisted⟩ := hnames.listed hplat
  have hget : (req.method == lit "HEAD") = false := by
    rw [hmethod]
    decide
  have hpage : IsPagePath req.cleanPath := hclean ▸ hnames.page
  have hlinks (uri : Bytes) :
      links (autoindexPage plat (render (pagePlace plat path) ++ [47]) uri) =
        listed.map (entryLink plat.files (pagePlace plat path)) := by
    rw [links_autoindex_page hlisted]
    exact List.map_congr_left fun name hname =>
      hnames.displayed_eq hplat (hperm.mem_iff.mp hname)
  -- the page is not empty, as it has a link to the directory above at least
  have hbody (uri : Bytes) :
      autoindexPage plat (render (pagePlace plat path) ++ [47]) uri ≠ [] := by
    intro hempty
    have hnone := hlinks uri
    rw [hempty] at hnone
    have hsome := List.ne_nil_of_mem (hperm.mem_iff.mpr List.mem_cons_self)
    exact hsome (List.map_eq_nil_iff.mp hnone.symm)
  refine ⟨listed, hperm, hsorted, ?_⟩
  show Receives (fun data => shownLinks data = some _)
    (dispatch plat (pageText (path ++ [47]) [])) s
  refine receives_of_page hplat.generates hparse hpage fun cookie hcookie s => ?_
  obtain ⟨fields, hfields, hcookie⟩ := hcookie
  unfold Receives
  rw [serve_static_eq, hnames.answer_eq hplat hclean, Answer.perform, serveFile]
  dsimp only
  rw [hnames.target_eq hplat]
  dsimp only
  have hstatus : 13 ∉ lit "200 OK" := by decide
  rw [received_of_send_listing hplat.attentive hget hcookie (hbody _),
    shown_links (status_response_is_answer hstatus html_type_clean hfields _) rfl]
  exact congrArg some (hlinks _)

end Shown

end Dvws
