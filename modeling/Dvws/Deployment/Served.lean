import Dvws.Deployment.Reproduction
import Dvws.Router.Pages

/-!
# A deployed site

An archive whose files find their directories, once deployed, is the site that is served below
`/deploy/`: a client that asks for a name is shown the latest data of the file of that name, is
redirected at a directory of the archive, and finds nothing anywhere else (`deployed_page_shown`).
The extraction keeps the file system a tree, whatever the archive (`kept_extraction`).
-/

namespace Dvws

open Effect Files StaticFiles

/-! ## The extraction keeps the files -/

section Kept

variable {plat : Platform}

/-- A `mkdir` call of an extraction leaves the tree `Kept`. -/
theorem kept_mkdir (path : Bytes) (e : Extraction) :
    Kept e.files (e.mkdir plat path).files := by
  unfold Extraction.mkdir
  dsimp only
  split
  · exact kept_make_dir
  · exact Kept.refl _

/-- `write_file` leaves the tree `Kept`. -/
theorem kept_write_file (path data : Bytes) (e : Extraction) :
    Kept e.files (writeFile plat path data e).files := by
  have hparent : Kept e.files (makeParent plat path e).files := by
    unfold makeParent
    split
    · exact kept_mkdir _ e
    · exact Kept.refl _
  unfold writeFile
  dsimp only
  split
  · exact hparent
  · next files hcreate =>
    split
    · exact hparent.trans (kept_create_file hcreate)
    · exact hparent

/-- The extraction of an entry leaves the tree `Kept`. -/
theorem kept_deploy_entry (e : Extraction) (entry : ZipEntry) :
    Kept e.files (deployEntry plat (deployDirectory plat) e entry).files := by
  rw [deploy_entry_eq]
  split
  · exact Kept.refl _
  · exact kept_write_file _ _ e

/-- Whatever the archive, its extraction keeps the files. -/
theorem kept_extraction (plat : Platform) (entries : List ZipEntry) :
    Kept plat.files (extraction plat entries).files := by
  unfold extraction
  induction entries using List.reverseRecOn with
  | nil =>
      rw [List.foldl_nil, startExtraction, ensureDeployDirectory]
      split
      · exact kept_mkdir (deployDirectory plat) ⟨plat.files, 0, []⟩
      · exact Kept.refl plat.files
  | append_singleton entries entry ih =>
      rw [List.foldl_append, List.foldl_cons, List.foldl_nil]
      exact ih.trans (kept_deploy_entry _ entry)

end Kept

/-! ## The site -/

/-- What the archive has under a name. -/
def sitePage (files : List (Bytes × Bytes)) (name : Bytes) : Page :=
  match files.reverse.lookup name with
  | some data => .document data
  | none => if ∃ file ∈ files, directories file.1 = components name then .moved else .missing

/-- A server on which archives can be deployed. -/
structure Deploys (plat : Platform) : Prop where
  empty : StartsEmpty plat
  writes : WritesSucceed plat
  rooted : Rooted plat.files
  cwd : Proper plat.cwd
  room : (cstr plat.serverDir ++ lit "/deploy").length ≤ 511

/-- The server after the deployment of these files, for a client that takes what it is sent. -/
structure After (plat : Platform) (files : List (Bytes × Bytes)) (after : Platform) : Prop where
  serverDir : after.serverDir = plat.serverDir
  cwd : after.cwd = plat.cwd
  files : after.files = (extraction plat (entriesOf files)).files
  attentive : after.Attentive
  generates : after.Generates
  resolves : ∀ path, after.canonicalFails path = false

/-- A file is asked for below `/deploy/` by its name in normal form. -/
structure NamesFile (plat : Platform) (name : Bytes) : Prop where
  normal : IsNormal name
  file : ¬ EndsInSlash name
  plain : PlainPath (lit "deploy/" ++ name)
  fits : (render (deployLocation plat ++ components name)).length ≤ 511

section Site

variable {plat after : Platform} {files : List (Bytes × Bytes)} {name : Bytes}

/-- After a deployment the server still serves. -/
theorem After.serving (h : After plat files after) (hplat : Deploys plat) : Serving after where
  attentive := h.attentive
  generates := h.generates
  resolves := h.resolves
  rooted := by
    rw [h.files]
    exact (kept_extraction plat _).rooted hplat.rooted
  cwd := by
    rw [h.cwd]
    exact hplat.cwd

/-- A path below `/deploy/` leads to the place of its name in the deployment directory. -/
theorem After.place (h : After plat files after) (hplat : Deploys plat)
    (hname : NamesFile plat name) : pagePlace after (lit "deploy/" ++ name) =
      deployLocation plat ++ components name := by
  have hdirectory : deployDirectory plat = cstr plat.serverDir ++ lit "/deploy" :=
    List.take_of_length_le hplat.room
  have hpath : cstr after.serverDir ++ 47 :: (lit "deploy/" ++ name) =
      deployDirectory plat ++ 47 :: name := by
    have hmark : (47 :: lit "deploy/") = lit "/deploy" ++ [47] := by decide
    rw [hdirectory, h.serverDir, ← List.cons_append, hmark]
    simp only [List.append_assoc, List.singleton_append]
  rw [pagePlace, hpath, h.cwd, normalize_join (deploy_directory_ne_nil plat),
    foldl_enter_ordinary (hname.normal.ordinary hname.file)]
  rfl

/-- Nothing below `/deploy/` is a route. -/
theorem deploy_is_page (name : Bytes) : IsPagePath (47 :: (lit "deploy/" ++ name)) := by
  have hstart : 47 :: (lit "deploy/" ++ name) = lit "/deploy/" ++ name := rfl
  have hlength : 8 ≤ (lit "/deploy/" ++ name).length := by
    rw [List.length_append]
    exact Nat.le_add_right 8 _
  have hother {path : Bytes} (hne : path.take 8 ≠ lit "/deploy/") :
      lit "/deploy/" ++ name ≠ path := by
    rintro rfl
    exact hne (List.take_left' rfl)
  rw [hstart]
  constructor
  case notOpen =>
    refine List.lookup_eq_none_iff.mpr fun entry hentry => bne_iff_ne.mpr ?_
    have hopen : ∀ entry ∈ openRoutes, entry.1.take 8 ≠ lit "/deploy/" := by
      intro entry hentry
      simp only [openRoutes, List.mem_cons, List.not_mem_nil, or_false] at hentry
      obtain rfl | rfl | rfl | rfl := hentry <;> decide
    exact hother (hopen entry hentry)
  case unguarded =>
    unfold isGuarded
    rw [Bool.or_eq_false_iff]
    refine ⟨rfl, ?_⟩
    exact beq_eq_false_iff_ne.mpr (hother (by decide))
  case notRule =>
    intro hrule
    obtain ⟨rest, hrest⟩ := hrule
    have hbytes : ([47, 99] : Bytes) = [47, 100] := congrArg (List.take 2) hrest
    exact absurd hbytes (by decide)

/-- The path below `/deploy/` names a page. -/
theorem After.named (h : After plat files after) (hplat : Deploys plat)
    (hname : NamesFile plat name) : NamesPage after (lit "deploy/" ++ name) where
  plain := hname.plain
  page := deploy_is_page name
  noDirectory := by
    have hjoin : lit "deploy/" ++ name = lit "deploy" ++ 47 :: name := rfl
    have hsingle : components (lit "deploy") = [lit "deploy"] := by decide
    refine ends_in_directory_of_ordinary (fun part hpart => ?_) ?_
    · have hpart := List.mem_of_getLast? hpart
      rw [hjoin, components_join, hsingle, List.singleton_append] at hpart
      obtain rfl | hpart := List.mem_cons.mp hpart
      · exact ⟨by decide, by decide⟩
      · exact hname.normal.ordinary hname.file part hpart
    · rw [List.getLast?_append_of_ne_nil _ hname.normal.ne_nil]
      exact hname.file
  below := by
    obtain ⟨leaf, hleaf⟩ := exists_components_eq hname.normal.ne_nil hname.file
    rw [h.place hplat hname, hleaf]
    simp
  fits := by
    rw [h.place hplat hname]
    exact hname.fits

/-- At the place of a name the tree has what the archive has under it. -/
theorem page_at_of_deployed (hplat : Deploys plat) (hnamed : WellNamed files)
    (harranged : Arranged files) (hname : NamesFile plat name) :
    pageAt (extraction plat (entriesOf files)).files (deployLocation plat ++ components name) =
      sitePage files name := by
  obtain ⟨hholds, -, -⟩ := holds_of_parents_first hplat.empty hplat.writes hnamed
    harranged.plain harranged.parents
  have hne : components name ≠ [] := by
    obtain ⟨leaf, hleaf⟩ := exists_components_eq hname.normal.ne_nil hname.file
    simp [hleaf]
  unfold sitePage
  cases hlookup : files.reverse.lookup name with
  | some data =>
      obtain ⟨mtime, readable, hthere⟩ := hholds.contents name data hlookup
      have hreadable : readable = true := by
        -- there was nothing before that could not be read
        cases readable with
        | true => rfl
        | false =>
            have hbefore := (kept_extraction plat (entriesOf files)).readable _ _ _ hthere
            rw [hplat.empty.empty _ hne] at hbefore
            cases hbefore
      subst hreadable
      unfold pageAt
      rw [hthere]
  | none =>
      have hnofile (content : Bytes) (mtime : Int) (readable : Bool) :
          (extraction plat (entriesOf files)).files (deployLocation plat ++ components name) ≠
            some (.file content mtime readable) := by
        intro hthere
        obtain ⟨file, hfile, hsame⟩ := hholds.file_of_there hthere
        have heq := hname.normal.components_inj (hnamed.normal file hfile).1 hname.file
          (harranged.plain file hfile).1 hsame
        refine absurd (List.lookup_eq_none_iff.mp hlookup file (List.mem_reverse.mpr hfile)) ?_
        rw [heq]
        simp
      have hdir := hholds.directory (components name) hne
      dsimp only
      unfold pageAt
      cases hthere : (extraction plat (entriesOf files)).files
          (deployLocation plat ++ components name) with
      | none =>
          have hnodir : ¬ ∃ file ∈ files, directories file.1 = components name := by
            rw [← hdir, FileTree.isDir, hthere]
            exact Bool.false_ne_true
          rw [if_neg hnodir]
      | some node =>
          cases node with
          | file content mtime readable => exact absurd hthere (hnofile content mtime readable)
          | dir names mtime size readable =>
              have hisdir : ∃ file ∈ files, directories file.1 = components name := by
                rw [← hdir, FileTree.isDir, hthere]
                rfl
              rw [if_pos hisdir]

/-- Who asks for a name below `/deploy/` is shown what the archive has under it. -/
theorem deployed_page_shown (hplat : Deploys plat) (hnamed : WellNamed files)
    (harranged : Arranged files) (hafter : After plat files after) (hname : NamesFile plat name)
    (s : Server) :
    shownPage (received (dispatch after (pageText (lit "deploy/" ++ name) []) s).events) =
      some (sitePage files name) := by
  have hpage := hafter.named hplat hname
  obtain ⟨req, hparse, hmethod, hclean, hims⟩ := parse_bare_page hpage.plain
  rw [shown_of_get (hafter.serving hplat) hpage hparse hmethod hclean s hims,
    hafter.place hplat hname, hafter.files, page_at_of_deployed hplat hnamed harranged hname]

end Site

/-- The site after its deployment. -/
def deployedSite : Platform :=
  { sitePlatform siteFiles with
    files := (extraction (sitePlatform siteFiles) (entriesOf siteFiles)).files
    sessionId := generatedId fun _ => 0 }

/-- The site can be deployed on its disk. -/
theorem site_deploys : Deploys (sitePlatform siteFiles) where
  empty := site_starts_empty siteFiles
  writes := site_writes_succeed siteFiles
  rooted := by
    intro loc hloc hthere
    have hplace : loc = [] ∨ loc = [lit "srv"] ∨ loc = [lit "srv", lit "deploy"] := by
      by_contra hother
      exact hthere (if_neg hother)
    obtain rfl | rfl | rfl := hplace
    · exact absurd rfl hloc
    · rfl
    · rfl
  cwd := ⟨List.forall_mem_nil _, List.forall_mem_nil _⟩
  room := by decide

/-- A style sheet of the site is shown. -/
theorem deployed_page_shown_style :
    shownPage (received (dispatch deployedSite (pageText (lit "deploy/css/a.css") [])
      Server.init).events) = some (.document (lit "b")) := by
  have hnamed : WellNamed siteFiles := ⟨by decide +kernel, by decide +kernel⟩
  have hnone : ParentsFirst [] := fun before file after hsplit => by simp at hsplit
  have hpage : ParentsFirst (siteFiles.take 1) := hnone.concat (.inl (by decide +kernel))
  have hstyle : ParentsFirst (siteFiles.take 2) := hpage.concat (.inl (by decide +kernel))
  have hall : ParentsFirst siteFiles := hstyle.concat
    (.inr ⟨(lit "css/a.css", lit "b"), by decide +kernel, by decide +kernel⟩)
  have hafter : After (sitePlatform siteFiles) siteFiles deployedSite :=
    ⟨rfl, rfl, rfl, fun _ => rfl, ⟨fun _ => 0, rfl⟩, fun _ => rfl⟩
  have hname : NamesFile (sitePlatform siteFiles) (lit "css/a.css") :=
    ⟨by decide +kernel, by decide, ⟨by decide +kernel, by decide, by decide⟩, by decide +kernel⟩
  exact deployed_page_shown site_deploys hnamed ⟨by decide +kernel, hall⟩ hafter hname Server.init

end Dvws
