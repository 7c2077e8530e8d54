import Dvws.Router.Listings

/-!
# Following links

A client that starts at a directory and follows the links of the listings, but those to the
directories above, gets to the path of every file below that directory, is shown its content there,
and gets to nothing else (`crawl_is_exact`). The client works on the bytes that it is sent alone and
takes a link as it stands; the server may be in another state whenever it asks.
-/

namespace Dvws

open Effect Files StaticFiles Wire

/-- What a client receives for a path, from the state that the server is in then. -/
def fetched (plat : Platform) (states : Bytes → Server) (path : Bytes) : Bytes :=
  received (dispatch plat (pageText path []) (states path)).events

/-- The paths that a client gets to: that of the directory where it starts, and those that the links
of a listing lead to, unless they lead to the directory above. -/
inductive Crawled (plat : Platform) (states : Bytes → Server) (root : Bytes) : Bytes → Prop
  | start : Crawled plat states root (root ++ [47])
  | follow {path link : Bytes} {found : List Bytes}
      (hpath : Crawled plat states root (path ++ [47]))
      (hshown : shownLinks (fetched plat states (path ++ [47])) = some found)
      (hlink : link ∈ found) (hdown : link ≠ lit "../") :
      Crawled plat states root (path ++ 47 :: link)

/-- A directory whose files can be browsed: whatever is below it has a plain path of no route, short
enough not to be cut, and a directory there can be read, lists what is in it, and has no index
document. -/
structure Browsable (plat : Platform) (root : Bytes) : Prop where
  below : pagePlace plat root ≠ []
  directory : plat.files.isDir (pagePlace plat root) = true
  named : ∀ rel, plat.files (pagePlace plat root ++ rel) ≠ none → Proper rel
  plain : ∀ rel, plat.files (pagePlace plat root ++ rel) ≠ none →
    PlainPath (root ++ slashed rel ++ [47])
  page : ∀ rel, plat.files (pagePlace plat root ++ rel) ≠ none →
    IsPagePath (47 :: (root ++ slashed rel)) ∧ IsPagePath (47 :: (root ++ slashed rel ++ [47]))
  fits : ∀ rel, plat.files (pagePlace plat root ++ rel) ≠ none →
    (render (pagePlace plat root ++ rel)).length ≤ 510
  listed : ∀ rel names mtime size readable,
    plat.files (pagePlace plat root ++ rel) = some (.dir names mtime size readable) →
      readable = true ∧
        ∀ name, name ∈ names ↔ plat.files (pagePlace plat root ++ (rel ++ [name])) ≠ none
  noIndex : ∀ rel content mtime readable,
    plat.files (indexPlace (pagePlace plat root ++ rel)) ≠ some (.file content mtime readable)

section Crawl

variable {plat : Platform} {states : Bytes → Server} {root path : Bytes} {rel : Location}

/-- A name behind a path leads on from its place. -/
theorem page_place_join {name : Bytes} (hname : components name = [name]) :
    pagePlace plat (path ++ 47 :: name) = enter (pagePlace plat path) name := by
  have hjoin : cstr plat.serverDir ++ 47 :: (path ++ 47 :: name) =
      (cstr plat.serverDir ++ 47 :: path) ++ 47 :: name := by
    simp only [List.append_assoc, List.cons_append]
  rw [pagePlace, hjoin, normalize_join (by simp), hname]
  rfl

/-- Names behind a path lead down from its place. -/
theorem page_place_slashed (h : Proper rel) :
    pagePlace plat (root ++ slashed rel) = pagePlace plat root ++ rel := by
  induction rel using List.reverseRecOn with
  | nil => rw [List.append_nil]; exact congrArg _ (List.append_nil _)
  | append_singleton front name ih =>
      obtain ⟨hfront, hsingle, hordinary⟩ := h.of_concat
      rw [slashed_concat, ← List.append_assoc, page_place_join hsingle, ih hfront,
        enter_ordinary hordinary, List.append_assoc]

/-- What is below the start is found at the names below its path. -/
theorem Browsable.place_eq (hsite : Browsable plat root) {node : Node}
    (hthere : plat.files (pagePlace plat root ++ rel) = some node) :
    pagePlace plat (root ++ slashed rel) = pagePlace plat root ++ rel :=
  page_place_slashed (hsite.named rel (hthere ▸ Option.some_ne_none _))

/-- A file is not at the start, where a directory is. -/
theorem Browsable.ne_nil_of_file (hsite : Browsable plat root) {content : Bytes} {mtime : Int}
    {readable : Bool}
    (hthere : plat.files (pagePlace plat root ++ rel) = some (.file content mtime readable)) :
    rel ≠ [] := by
  rintro rfl
  have hdir := hsite.directory
  rw [List.append_nil] at hthere
  rw [FileTree.isDir, hthere] at hdir
  cases hdir

/-- A directory of the site is listed. -/
theorem Browsable.names_listing (hsite : Browsable plat root) {names : List Bytes} {mtime : Int}
    {size : Nat} {readable : Bool}
    (hthere : plat.files (pagePlace plat root ++ rel) = some (.dir names mtime size readable)) :
    NamesListing plat (root ++ slashed rel) names := by
  have hsome : plat.files (pagePlace plat root ++ rel) ≠ none := hthere ▸ Option.some_ne_none _
  have hplace := hsite.place_eq hthere
  obtain ⟨rfl, hlisted⟩ := hsite.listed rel names mtime size readable hthere
  refine ⟨hsite.plain rel hsome, (hsite.page rel hsome).2, ?_, ?_, ?_, fun name hname => ?_, ?_⟩
  · rw [hplace]
    exact List.append_ne_nil_of_left_ne_nil hsite.below _
  · rw [hplace]
    exact hsite.fits rel hsome
  · rw [hplace]
    exact ⟨mtime, size, hthere⟩
  · obtain ⟨-, hsingle, hordinary⟩ := (hsite.named _ ((hlisted name).mp hname)).of_concat
    exact ⟨fun other hother => (List.mem_singleton.mp hother) ▸ hordinary,
      fun other hother => (List.mem_singleton.mp hother) ▸ hsingle⟩
  · rw [hplace]
    exact hsite.noIndex rel

/-- A file of the site is a page. -/
theorem Browsable.names_page (hsite : Browsable plat root) {content : Bytes} {mtime : Int}
    {readable : Bool}
    (hthere : plat.files (pagePlace plat root ++ rel) = some (.file content mtime readable)) :
    NamesPage plat (root ++ slashed rel) := by
  have hsome : plat.files (pagePlace plat root ++ rel) ≠ none := hthere ▸ Option.some_ne_none _
  have hproper := hsite.named rel hsome
  have hplace := hsite.place_eq hthere
  have hplain := hsite.plain rel hsome
  have hnonempty : root ++ slashed rel ≠ [] := by
    intro hempty
    have hstart := hplain.start.2
    rw [hempty] at hstart
    exact hstart rfl
  have hshort := hplain.short
  rw [List.length_append] at hshort
  refine ⟨⟨fun c hc => ?_, ⟨hnonempty, fun hstart => ?_⟩, by omega⟩, (hsite.page rel hsome).1, ?_,
    ?_, ?_⟩
  · exact hplain.bytes c (List.mem_append_left _ hc)
  · refine hplain.start.2 ?_
    rw [List.head?_append_of_ne_nil _ hnonempty]
    exact hstart
  · have hne := hsite.ne_nil_of_file hthere
    refine ends_in_directory_of_ordinary (fun name hname => ?_) (last_slashed hproper hne root)
    -- the last name is that of the file
    obtain ⟨front, last, rfl⟩ := (List.eq_nil_or_concat rel).resolve_left hne
    rw [List.concat_eq_append] at hproper hname
    obtain ⟨-, hsingle, hordinary⟩ := hproper.of_concat
    rw [slashed_concat, ← List.append_assoc, components_join, hsingle,
      List.getLast?_concat] at hname
    obtain rfl := Option.some.inj hname
    exact hordinary
  · rw [hplace]
    exact List.append_ne_nil_of_left_ne_nil hsite.below _
  · rw [hplace]
    exact Nat.le_succ_of_le (hsite.fits rel hsome)

/-- The path that leads to a node of the site. -/
def sitePath (root : Bytes) (rel : Location) (node : Node) : Bytes :=
  root ++ slashed rel ++ if node.isDir then [47] else []

/-- Only the path of a directory ends in a slash. -/
theorem Browsable.is_dir_of_slash (hsite : Browsable plat root) {node : Node}
    (hthere : plat.files (pagePlace plat root ++ rel) = some node)
    (hpath : path ++ [47] = sitePath root rel node) :
    node.isDir = true ∧ path = root ++ slashed rel := by
  unfold sitePath at hpath
  cases node with
  | file content mtime readable =>
      have hsome : plat.files (pagePlace plat root ++ rel) ≠ none := hthere ▸ Option.some_ne_none _
      have hlast := last_slashed (hsite.named rel hsome) (hsite.ne_nil_of_file hthere) root
      have hends : path ++ [47] = root ++ slashed rel := hpath.trans (List.append_nil _)
      rw [← hends, List.getLast?_concat] at hlast
      exact absurd rfl hlast
  | dir names mtime size readable => exact ⟨rfl, List.append_cancel_right hpath⟩

/-- The link to the directory above is the one that is not followed. -/
theorem entry_link_ne_up {tree : FileTree} {loc : Location} {name : Bytes}
    (hsingle : components name = [name]) (hname : name ≠ lit "..") :
    entryLink tree loc name ≠ lit "../" := by
  have hup : lit "../" = lit ".." ++ [47] := by decide
  obtain ⟨-, hnot⟩ := ne_nil_and_not_mem_of_single hsingle
  unfold entryLink
  split
  · intro heq
    rw [hup] at heq
    exact hname (List.append_cancel_right heq)
  · intro heq
    rw [List.append_nil] at heq
    rw [heq] at hnot
    exact hnot (by decide)

/-- The entry for the directory above is the link that the listing has for it. -/
theorem entry_link_up {tree : FileTree} {loc : Location} (hrooted : Rooted tree) (hloc : loc ≠ [])
    (hthere : tree loc ≠ none) : entryLink tree loc (lit "..") = lit "../" := by
  have henter : enter loc (lit "..") = loc.dropLast := rfl
  rw [entryLink, henter, if_pos (hrooted loc hloc hthere)]
  decide

/-- A listing of the site leads to what is in its directory. -/
theorem Browsable.links_of_listing (hplat : Serving plat) (hsite : Browsable plat root)
    {names : List Bytes} {mtime : Int} {size : Nat} {readable : Bool}
    (hthere : plat.files (pagePlace plat root ++ rel) = some (.dir names mtime size readable)) :
    ∃ found, shownLinks (fetched plat states (root ++ slashed rel ++ [47])) = some found ∧
      ∀ link, link ∈ found ∧ link ≠ lit "../" ↔
        ∃ name, plat.files (pagePlace plat root ++ (rel ++ [name])) ≠ none ∧
          link = entryLink plat.files (pagePlace plat root ++ rel) name := by
  have hsome : plat.files (pagePlace plat root ++ rel) ≠ none := hthere ▸ Option.some_ne_none _
  have hplace := hsite.place_eq hthere
  have hbelow : pagePlace plat root ++ rel ≠ [] := List.append_ne_nil_of_left_ne_nil hsite.below _
  obtain ⟨-, hlisted⟩ := hsite.listed rel names mtime size readable hthere
  obtain ⟨listed, hperm, -, hshown⟩ :=
    listing_shown hplat (hsite.names_listing hthere) (states (root ++ slashed rel ++ [47]))
  rw [hplace] at hshown
  refine ⟨_, hshown, fun link => ⟨fun h => ?_, fun h => ?_⟩⟩
  · obtain ⟨name, hname, rfl⟩ := List.mem_map.mp h.1
    obtain rfl | hname := List.mem_cons.mp (hperm.mem_iff.mp hname)
    · exact absurd (entry_link_up hplat.rooted hbelow hsome) h.2
    · exact ⟨name, (hlisted name).mp hname, rfl⟩
  · obtain ⟨name, hentry, rfl⟩ := h
    obtain ⟨-, hsingle, hordinary⟩ := (hsite.named _ hentry).of_concat
    have hname := List.mem_cons_of_mem (lit "..") ((hlisted name).mpr hentry)
    exact ⟨List.mem_map_of_mem (hperm.mem_iff.mpr hname), entry_link_ne_up hsingle hordinary.2⟩

/-- The path of an entry is that of its directory and the link to it. -/
theorem site_path_concat {name : Bytes} {node : Node} {tree : FileTree} {place : Location}
    (hordinary : name ≠ lit "." ∧ name ≠ lit "..")
    (hentry : tree (place ++ (rel ++ [name])) = some node) :
    root ++ slashed rel ++ 47 :: entryLink tree (place ++ rel) name =
      sitePath root (rel ++ [name]) node := by
  have hdir : tree.isDir (enter (place ++ rel) name) = node.isDir := by
    rw [enter_ordinary hordinary, List.append_assoc, FileTree.isDir, hentry]
    rfl
  rw [sitePath, slashed_concat, entryLink, hdir]
  simp only [List.append_assoc, List.cons_append]

/-- A crawl starts at a directory of the site. -/
theorem Browsable.exists_start (hsite : Browsable plat root) :
    ∃ node, plat.files (pagePlace plat root ++ []) = some node ∧
      root ++ [47] = sitePath root [] node := by
  have hdir := hsite.directory
  rw [FileTree.isDir, Option.any_eq_true] at hdir
  obtain ⟨node, hthere, hdir⟩ := hdir
  refine ⟨node, (congrArg plat.files (List.append_nil _)).trans hthere, ?_⟩
  rw [sitePath, if_pos hdir]
  exact congrArg (· ++ [47]) (List.append_nil root).symm

/-- A client gets to nothing but the paths of what is below the start. -/
theorem Crawled.exists_node (hplat : Serving plat) (hsite : Browsable plat root)
    (h : Crawled plat states root path) : ∃ rel node,
      plat.files (pagePlace plat root ++ rel) = some node ∧ path = sitePath root rel node := by
  induction h with
  | start => exact ⟨[], hsite.exists_start⟩
  | @follow path link found _ hshown hlink hdown ih =>
      obtain ⟨rel, node, hthere, hpath⟩ := ih
      obtain ⟨hdir, rfl⟩ := hsite.is_dir_of_slash hthere hpath
      cases node with
      | file => cases hdir
      | dir names mtime size readable =>
          -- the links that were found are those of this listing
          obtain ⟨links, hlinks, hiff⟩ := hsite.links_of_listing hplat hthere
          obtain rfl : links = found := Option.some.inj (hlinks.symm.trans hshown)
          obtain ⟨name, hentry, rfl⟩ := (hiff link).mp ⟨hlink, hdown⟩
          obtain ⟨node, hnode⟩ := Option.ne_none_iff_exists'.mp hentry
          obtain ⟨-, -, hordinary⟩ := (hsite.named _ hentry).of_concat
          exact ⟨rel ++ [name], node, hnode, site_path_concat hordinary hnode⟩

/-- A crawl gets to all files and directories of the site. -/
theorem Browsable.crawled (hplat : Serving plat) (hsite : Browsable plat root) {node : Node}
    (hthere : plat.files (pagePlace plat root ++ rel) = some node) :
    Crawled plat states root (sitePath root rel node) := by
  -- the last name is found in the listing of the directory above, which is there in a rooted tree
  induction rel using List.reverseRecOn generalizing node with
  | nil =>
      obtain ⟨start, hfound, hpath⟩ := hsite.exists_start
      obtain rfl := Option.some.inj (hthere.symm.trans hfound)
      exact hpath ▸ .start
  | append_singleton front name ih =>
      have hentry : plat.files (pagePlace plat root ++ (front ++ [name])) ≠ none :=
        hthere ▸ Option.some_ne_none _
      obtain ⟨-, -, hordinary⟩ := (hsite.named _ hentry).of_concat
      have habove : plat.files.isDir (pagePlace plat root ++ front) = true := by
        have hdir := hplat.rooted (pagePlace plat root ++ (front ++ [name])) (by simp) hentry
        rwa [← List.append_assoc, List.dropLast_concat] at hdir
      rw [FileTree.isDir, Option.any_eq_true] at habove
      obtain ⟨above, hfront, hdir⟩ := habove
      have hcrawled := ih hfront
      cases above with
      | file => cases hdir
      | dir names mtime size readable =>
          obtain ⟨links, hlinks, hiff⟩ := hsite.links_of_listing hplat hfront
          obtain ⟨hlink, hdown⟩ := (hiff _).mpr ⟨name, hentry, rfl⟩
          rw [← site_path_concat hordinary hthere]
          exact .follow hcrawled hlinks hlink hdown

/-- A client is shown a file of the site at its path, if it can be read. -/
theorem Browsable.shown_file (hplat : Serving plat) (hsite : Browsable plat root) {content : Bytes}
    {mtime : Int} {readable : Bool}
    (hthere : plat.files (pagePlace plat root ++ rel) = some (.file content mtime readable)) :
    shownPage (fetched plat states (root ++ slashed rel)) =
      some (if readable then .document content else .missing) := by
  have hplace := hsite.place_eq hthere
  have hnames := hsite.names_page hthere
  obtain ⟨req, hparse, hmethod, hclean, hims⟩ := parse_bare_page hnames.plain
  unfold fetched
  rw [shown_of_get hplat hnames hparse hmethod hclean _ hims, hplace, pageAt, hthere]
  cases readable <;> rfl

/-- The files that a client is shown behind the links are those below the directory where it
starts, each at its path and with its content. -/
theorem crawl_is_exact (hplat : Serving plat) (hsite : Browsable plat root)
    (states : Bytes → Server) (path content : Bytes) :
    (Crawled plat states root path ∧ path.getLast? ≠ some 47 ∧
      shownPage (fetched plat states path) = some (.document content)) ↔
    ∃ rel mtime, path = root ++ slashed rel ∧
      plat.files (pagePlace plat root ++ rel) = some (.file content mtime true) := by
  constructor
  · rintro ⟨hcrawled, hlast, hshown⟩
    obtain ⟨rel, node, hthere, rfl⟩ := hcrawled.exists_node hplat hsite
    cases node with
    | dir => exact absurd (List.getLast?_concat ..) hlast
    | file found mtime readable =>
        have hpath : sitePath root rel (.file found mtime readable) = root ++ slashed rel :=
          List.append_nil _
        rw [hpath, hsite.shown_file hplat hthere] at hshown
        cases readable with
        | false => cases hshown
        | true =>
            cases hshown
            exact ⟨rel, mtime, hpath, hthere⟩
  · rintro ⟨rel, mtime, rfl, hthere⟩
    have hsome : plat.files (pagePlace plat root ++ rel) ≠ none := hthere ▸ Option.some_ne_none _
    have hpath : sitePath root rel (.file content mtime true) = root ++ slashed rel :=
      List.append_nil _
    refine ⟨hpath ▸ hsite.crawled hplat hthere, ?_, ?_⟩
    · exact last_slashed (hsite.named rel hsome) (hsite.ne_nil_of_file hthere) root
    · rw [hsite.shown_file hplat hthere]
      rfl

end Crawl

/-- A server with a directory that has a directory in it, and a file in that; both names have
characters that a listing escapes. -/
def nestedDirectory (content : Bytes) : Platform :=
  { Platform.generating with
    files := fun loc =>
      if loc = [] then some (.dir [lit "srv"] 0 4096 true)
      else if loc = [lit "srv"] then some (.dir [lit "docs"] 0 4096 true)
      else if loc = [lit "srv", lit "docs"] then some (.dir [lit "r&d"] 0 4096 true)
      else if loc = [lit "srv", lit "docs", lit "r&d"] then some (.dir [lit "\"a\""] 0 4096 true)
      else if loc = [lit "srv", lit "docs", lit "r&d", lit "\"a\""] then
        some (.file content 0 true)
      else none }

/-- The server with the nested directory serves. -/
theorem nested_directory_serving (content : Bytes) : Serving (nestedDirectory content) := by
  refine ⟨fun _ => rfl, generating_generates, fun _ => rfl, fun loc hloc hthere => ?_,
    ⟨List.forall_mem_nil _, List.forall_mem_nil _⟩⟩
  by_cases hsrv : loc = [lit "srv"]
  · subst hsrv
    rfl
  by_cases hdocs : loc = [lit "srv", lit "docs"]
  · subst hdocs
    rfl
  by_cases hinner : loc = [lit "srv", lit "docs", lit "r&d"]
  · subst hinner
    rfl
  by_cases hfile : loc = [lit "srv", lit "docs", lit "r&d", lit "\"a\""]
  · subst hfile
    rfl
  refine absurd ?_ hthere
  show (if _ then _ else _) = none
  rw [if_neg hloc, if_neg hsrv, if_neg hdocs, if_neg hinner, if_neg hfile]

/-- The path of the nested directory leads to its place on the disk. -/
theorem nested_directory_place (content : Bytes) :
    pagePlace (nestedDirectory content) (lit "docs") = [lit "srv", lit "docs"] := by
  show normalize [] (lit "/srv/docs") = _
  decide

/-- In `docs` there are one directory, `r&d`, and in that one file, `"a"`. -/
theorem nested_directory_files (content : Bytes) (rel : Location) :
    (nestedDirectory content).files (pagePlace (nestedDirectory content) (lit "docs") ++ rel) =
      if rel = [] then some (.dir [lit "r&d"] 0 4096 true)
      else if rel = [lit "r&d"] then some (.dir [lit "\"a\""] 0 4096 true)
      else if rel = [lit "r&d", lit "\"a\""] then some (.file content 0 true) else none := by
  rw [nested_directory_place]
  show (if _ then _ else _) = _
  simp

/-- Whatever there is in `docs` is one of these three. -/
theorem nested_directory_cases {content : Bytes} {rel : Location}
    (h : (nestedDirectory content).files
      (pagePlace (nestedDirectory content) (lit "docs") ++ rel) ≠ none) :
    rel = [] ∨ rel = [lit "r&d"] ∨ rel = [lit "r&d", lit "\"a\""] := by
  rw [nested_directory_files] at h
  by_cases hnil : rel = []
  · exact .inl hnil
  by_cases hinner : rel = [lit "r&d"]
  · exact .inr (.inl hinner)
  by_cases hfile : rel = [lit "r&d", lit "\"a\""]
  · exact .inr (.inr hfile)
  rw [if_neg hnil, if_neg hinner, if_neg hfile] at h
  exact absurd rfl h

/-- The nested directory can be browsed. -/
theorem nested_directory_browsable (content : Bytes) :
    Browsable (nestedDirectory content) (lit "docs") := by
  constructor
  · rw [nested_directory_place]
    decide
  · rw [nested_directory_place]
    rfl
  · intro rel h
    obtain rfl | rfl | rfl := nested_directory_cases h
    · exact ⟨List.forall_mem_nil _, List.forall_mem_nil _⟩
    · exact ⟨by unfold Ordinary; decide, by decide⟩
    · exact ⟨by unfold Ordinary; decide, by decide⟩
  · intro rel h
    obtain rfl | rfl | rfl := nested_directory_cases h
    · exact ⟨forall_mem_of_all (by decide), by decide, by decide⟩
    · exact ⟨forall_mem_of_all (by decide), by decide, by decide⟩
    · exact ⟨forall_mem_of_all (by decide), by decide, by decide⟩
  · intro rel h
    obtain rfl | rfl | rfl := nested_directory_cases h
    · exact ⟨⟨rfl, by decide, by decide⟩, ⟨rfl, by decide, by decide⟩⟩
    · exact ⟨⟨rfl, by decide, by decide⟩, ⟨rfl, by decide, by decide⟩⟩
    · exact ⟨⟨rfl, by decide, by decide⟩, ⟨rfl, by decide, by decide⟩⟩
  · intro rel h
    rw [nested_directory_place]
    obtain rfl | rfl | rfl := nested_directory_cases h
    · decide
    · decide
    · decide
  · intro rel names mtime size readable h
    obtain rfl | rfl | rfl := nested_directory_cases (h ▸ Option.some_ne_none _)
    · rw [nested_directory_files, if_pos rfl] at h
      cases h
      refine ⟨rfl, fun name => ?_⟩
      rw [nested_directory_files, List.nil_append]
      simp
    · rw [nested_directory_files, if_neg (by decide), if_pos rfl] at h
      cases h
      refine ⟨rfl, fun name => ?_⟩
      rw [nested_directory_files, List.singleton_append]
      simp
    · rw [nested_directory_files, if_neg (by decide), if_neg (by decide), if_pos rfl] at h
      cases h
  · intro rel found mtime readable h
    rw [indexPlace, List.append_assoc] at h
    -- neither of the names is that of an index document
    have hnot (names : Location) {name : Bytes} (hname : lit "index.html" ≠ name) :
        rel ++ [lit "index.html"] ≠ names ++ [name] := fun heq =>
      hname (List.singleton_inj.mp (List.append_inj_right' heq rfl))
    obtain hnil | hinner | hfile := nested_directory_cases (h ▸ Option.some_ne_none _)
    · exact absurd hnil (by simp)
    · exact hnot [] (by decide) hinner
    · exact hnot [lit "r&d"] (by decide) hfile

/-- A client that starts at `docs` gets to the file in the inner directory. -/
theorem crawl_is_exact_nested :
    Crawled (nestedDirectory (lit "text")) (fun _ => Server.init) (lit "docs")
        (lit "docs/r&d/\"a\"") ∧
      shownPage (fetched (nestedDirectory (lit "text")) (fun _ => Server.init)
        (lit "docs/r&d/\"a\"")) = some (.document (lit "text")) := by
  have hthere : (nestedDirectory (lit "text")).files
      (pagePlace (nestedDirectory (lit "text")) (lit "docs") ++ [lit "r&d", lit "\"a\""]) =
        some (.file (lit "text") 0 true) := by
    rw [nested_directory_files]
    rfl
  have hpath : lit "docs/r&d/\"a\"" = lit "docs" ++ slashed [lit "r&d", lit "\"a\""] := by decide
  obtain ⟨hcrawled, -, hshown⟩ := (crawl_is_exact (nested_directory_serving _)
    (nested_directory_browsable _) (fun _ => Server.init) _ _).mpr ⟨_, 0, hpath, hthere⟩
  exact ⟨hcrawled, hshown⟩

end Dvws
