import Dvws.Deployment.Names

/-!
# One file below the deployment directory

What `write_file` does with the name of a file in normal form, when no write fails. It makes one
directory, the last of the file's directories, if the one above that is there; and it stores the
file if its directory is there then.
-/

namespace Dvws

open Files

/-- Nothing that is written fails. -/
structure WritesSucceed (plat : Platform) : Prop where
  creates (path : Bytes) : plat.canCreate path = true
  stores (path data : Bytes) : plat.stored path data = data.length

/-- The path of the deployment directory leads to it. -/
def ReachesDirectory (plat : Platform) (base : Location) (tree : FileTree) : Prop :=
  walk tree (origin plat.cwd (deployDirectory plat)) (components (deployDirectory plat)) =
    some base

/-- The tree after the `mkdir` of `write_file`. -/
def withDirectory (base : Location) (dirs : List Bytes) (now : Int) (tree : FileTree) : FileTree :=
  if tree.isDir (base ++ dirs.dropLast) ∧ tree (base ++ dirs) = none then
    tree.put (base ++ dirs) (.dir [] now 4096 true)
  else tree

section Directory

variable {base l : Location} {dirs : List Bytes} {now : Int} {tree : FileTree}

/-- No directory is lost. -/
theorem is_dir_with_directory_of (h : tree.isDir l) :
    (withDirectory base dirs now tree).isDir l := by
  unfold withDirectory
  split
  · rw [is_dir_put]
    split
    · rfl
    · exact h
  · exact h

/-- The directory is there, if nothing else is in its place and the one above is there. -/
theorem is_dir_with_directory_iff (now : Int) (hparent : tree.isDir (base ++ dirs.dropLast))
    (hplace : tree (base ++ dirs) = none ∨ tree.isDir (base ++ dirs)) :
    ∀ l, (withDirectory base dirs now tree).isDir l ↔ l = base ++ dirs ∨ tree.isDir l := by
  intro l
  unfold withDirectory
  by_cases hnone : tree (base ++ dirs) = none
  · rw [if_pos ⟨hparent, hnone⟩, is_dir_put]
    split
    · next hsame => simp [hsame, Node.isDir]
    · next hother => simp [hother]
  · rw [if_neg fun h => hnone h.2]
    have hdir := hplace.resolve_left hnone
    constructor
    · exact Or.inr
    · intro h
      obtain hsame | h := h
      · exact hsame ▸ hdir
      · exact h

/-- Except at the new place, making a directory lets nothing appear or disappear. -/
theorem with_directory_eq_none_iff (h : l ≠ base ++ dirs) :
    withDirectory base dirs now tree l = none ↔ tree l = none := by
  unfold withDirectory
  split
  · exact put_eq_none_iff _ h
  · rfl

/-- Making a directory leaves the files as they were. -/
theorem with_directory_eq_file {content : Bytes} {mtime : Int} {readable : Bool}
    (hfile : tree l = some (.file content mtime readable)) :
    withDirectory base dirs now tree l = some (.file content mtime readable) := by
  unfold withDirectory
  split
  · next hnone =>
    refine put_eq_file ?_ hfile
    rintro rfl
    rw [hfile] at hnone
    exact absurd hnone.2 (Option.some_ne_none _)
  · exact hfile

/-- Directories below the base lie in directories, as before. -/
theorem closed_with_directory (hparent : tree.isDir (base ++ dirs.dropLast))
    (hplace : tree (base ++ dirs) = none ∨ tree.isDir (base ++ dirs)) (hclosed : Closed tree base) :
    Closed (withDirectory base dirs now tree) base := by
  intro rel hne hrel
  refine is_dir_with_directory_of ?_
  obtain hsame | hrel := (is_dir_with_directory_iff now hparent hplace _).mp hrel
  · rw [List.append_cancel_left hsame]
    exact hparent
  · exact hclosed rel hne hrel

end Directory

section Write

variable {plat : Platform} {base : Location} {e : Extraction} {name : Bytes}

/-- A path below the deployment directory is followed from there. -/
theorem locate_below {tree : FileTree} (hreach : ReachesDirectory plat base tree) (text : Bytes) :
    locate tree plat.cwd (deployDirectory plat ++ 47 :: text) =
      walk tree base (components text) := by
  have hne := deploy_directory_ne_nil plat
  unfold locate
  rw [if_neg fun h => hne (List.append_eq_nil_iff.mp h).1, origin_join hne, components_join,
    walk_append, hreach]
  rfl

/-- The path of the deployment directory leads to the deployment directory. -/
theorem locate_directory {tree : FileTree} (hreach : ReachesDirectory plat base tree) :
    locate tree plat.cwd (deployDirectory plat) = some base := by
  unfold locate
  rw [if_neg (deploy_directory_ne_nil plat)]
  exact hreach

/-- What the `mkdir` for the parent directory of a file makes. -/
theorem make_parent_files (hwrites : WritesSucceed plat)
    (hreach : ReachesDirectory plat base e.files) (hroot : e.files.isDir base)
    (hclosed : Closed e.files base) (hname : Ordinary (directories name)) :
    (makeParent plat (deployDirectory plat ++ 47 :: name) e).files =
      withDirectory base (directories name) plat.time e.files := by
  have hthere : e.files base ≠ none := by
    intro hnone
    rw [FileTree.isDir, hnone] at hroot
    exact absurd hroot (by decide)
  have hself : withDirectory base [] plat.time e.files = e.files := by
    unfold withDirectory
    rw [List.append_nil]
    exact if_neg fun h => hthere h.2
  unfold makeParent
  rw [parent_path_join]
  unfold directories at hname ⊢
  cases hinner : parentPath name with
  | none =>
      show (e.mkdir plat (deployDirectory plat)).files = withDirectory base [] plat.time e.files
      rw [hself, Extraction.mkdir, if_pos (hwrites.creates _), makeDir, locate_directory hreach]
      exact if_neg hthere
  | some inner =>
      rw [hinner] at hname
      rw [Option.getD_some] at hname ⊢
      show (e.mkdir plat (deployDirectory plat ++ 47 :: inner)).files = _
      rw [Extraction.mkdir, if_pos (hwrites.creates _), makeDir, locate_below hreach]
      by_cases hbase : components inner = []
      · rw [hbase, hself]
        exact if_neg hthere
      · rw [walk_of_closed hclosed hbase hname]
        unfold withDirectory
        by_cases hparent : e.files.isDir (base ++ (components inner).dropLast) = true
        · simp [hparent]
        · simp [hparent]

/-- The last byte of a joined path is that of its name. -/
theorem ends_in_slash_join (hne : name ≠ []) (dir : Bytes) :
    EndsInSlash (dir ++ 47 :: name) ↔ EndsInSlash name := by
  unfold EndsInSlash
  rw [List.getLast?_append_cons, List.getLast?_cons_of_ne_nil hne]

/-- `fopen` for a file asks for its directory, and for a place that no directory has. -/
theorem create_below (data : Bytes) {tree : FileTree} (hreach : ReachesDirectory plat base tree)
    (hclosed : Closed tree base) (hnormal : IsNormal name) (hfile : ¬ EndsInSlash name)
    (now : Int) :
    createFile tree plat.cwd (deployDirectory plat ++ 47 :: name) data now =
      if tree.isDir (base ++ directories name) ∧ ¬ tree.isDir (base ++ components name) then
        some (tree.put (base ++ components name) (.file data now true))
      else none := by
  obtain ⟨leaf, hleaf⟩ := exists_components_eq hnormal.ne_nil hfile
  have hne : components name ≠ [] := by simp [hleaf]
  have hlast : ¬ EndsInSlash (deployDirectory plat ++ 47 :: name) := by
    rwa [ends_in_slash_join hnormal.ne_nil]
  have hdirs : (components name).dropLast = directories name := by
    rw [hleaf, List.dropLast_concat]
  unfold createFile
  rw [locate_below hreach, walk_of_closed hclosed hne (hnormal.ordinary hfile), hdirs]
  by_cases hdir : tree.isDir (base ++ directories name) = true
  · rw [if_pos hdir]
    by_cases hplace : tree.isDir (base ++ components name) = true
    · simp [hdir, hplace]
    · have hfree : ¬ (EndsInSlash (deployDirectory plat ++ 47 :: name) ∨
          tree.isDir (base ++ components name) = true) := not_or.mpr ⟨hlast, hplace⟩
      rw [if_pos ⟨hdir, hplace⟩]
      exact if_neg hfree
  · simp [hdir]

/-- Making the parent directory counts no file. -/
theorem make_parent_count (path : Bytes) : (makeParent plat path e).count = e.count := by
  unfold makeParent
  split
  · rfl
  · rfl

/-- A `write_file` call below a directory is seen by its `mkdir`. -/
theorem write_file_events_length (plat : Platform) (dir name data : Bytes) (e : Extraction) :
    e.events.length < (writeFile plat (dir ++ 47 :: name) data e).events.length := by
  have hparent : e.events.length < (makeParent plat (dir ++ 47 :: name) e).events.length := by
    unfold makeParent
    rw [parent_path_join]
    simp [Extraction.mkdir]
  unfold writeFile
  dsimp only
  split
  · exact hparent
  · split
    · refine hparent.trans ?_
      simp
    · exact hparent

/-- The part of a path before its last slash begins it. -/
theorem prefix_of_parent_path {path dir : Bytes} (h : parentPath path = some dir) :
    dir <+: path := by
  obtain ⟨-, hdir⟩ := Option.ite_none_right_eq_some.mp h
  rw [← Option.some.inj hdir, ← List.reverse_suffix, List.reverse_reverse]
  exact (List.drop_suffix _ _).trans (List.dropWhile_suffix _)

/-- What is new in a tree after a `mkdir` call is at its place. -/
theorem made_of_mkdir {path : Bytes} {l : Location}
    (h : (e.mkdir plat path).files l ≠ none) :
    e.files l ≠ none ∨ l = normalize plat.cwd path := by
  unfold Extraction.mkdir at h
  dsimp only at h
  split at h
  · exact made_of_make_dir h
  · exact Or.inl h

/-- What is new in a tree after a `write_file` call is where a beginning of its name leads. -/
theorem made_of_write_file {text data : Bytes} {l : Location}
    (h : (writeFile plat (deployDirectory plat ++ 47 :: text) data e).files l ≠ none) :
    e.files l ≠ none ∨ ∃ part, part <+: text ∧
      l = (components part).foldl enter (normalize plat.cwd (deployDirectory plat)) := by
  have hjoin (part : Bytes) : normalize plat.cwd (deployDirectory plat ++ 47 :: part) =
      (components part).foldl enter (normalize plat.cwd (deployDirectory plat)) :=
    normalize_join (deploy_directory_ne_nil plat) part
  have hparent (hl : (makeParent plat (deployDirectory plat ++ 47 :: text) e).files l ≠ none) :
      e.files l ≠ none ∨ ∃ part, part <+: text ∧
        l = (components part).foldl enter (normalize plat.cwd (deployDirectory plat)) := by
    unfold makeParent at hl
    rw [parent_path_join] at hl
    cases hdir : parentPath text with
    | none =>
        rw [hdir] at hl
        exact (made_of_mkdir hl).imp_right fun hplace => ⟨[], List.nil_prefix, hplace⟩
    | some inner =>
        rw [hdir] at hl
        refine (made_of_mkdir hl).imp_right fun hplace => ⟨inner, prefix_of_parent_path hdir, ?_⟩
        rw [hplace, hjoin]
  unfold writeFile at h
  dsimp only at h
  split at h
  · exact hparent h
  · next files hcreate =>
    split at h
    · obtain hbefore | hplace := made_of_create_file hcreate h
      · exact hparent hbefore
      · exact Or.inr ⟨text, List.prefix_refl _, hplace.trans (hjoin text)⟩
    · exact hparent h

/-- `write_file` when no write fails: the file is there and counts, or the directory may be. -/
theorem write_file_eq (hwrites : WritesSucceed plat) (path data : Bytes) (e : Extraction) :
    (writeFile plat path data e).files =
        ((createFile (makeParent plat path e).files plat.cwd path data plat.time).getD
          (makeParent plat path e).files) ∧
      (writeFile plat path data e).count =
        if createFile (makeParent plat path e).files plat.cwd path data plat.time = none then
          e.count
        else e.count + 1 := by
  have hstored : data.take (plat.stored path data) = data := by
    rw [hwrites.stores, List.take_length]
  unfold writeFile
  dsimp only
  rw [hstored]
  cases hcreate : createFile (makeParent plat path e).files plat.cwd path data plat.time with
  | none =>
      rw [if_pos rfl, make_parent_count]
      exact ⟨rfl, rfl⟩
  | some files =>
      dsimp only
      rw [if_pos (hwrites.creates path), if_pos rfl, make_parent_count,
        if_neg (Option.some_ne_none files)]
      exact ⟨rfl, rfl⟩

/-- A file whose directory can be made is stored. -/
theorem write_file_of_parent (data : Bytes) (hwrites : WritesSucceed plat)
    (hreach : ReachesDirectory plat base e.files) (hroot : e.files.isDir base)
    (hclosed : Closed e.files base) (hnormal : IsNormal name) (hfile : ¬ EndsInSlash name)
    (hparent : e.files.isDir (base ++ (directories name).dropLast))
    (hplace : e.files (base ++ directories name) = none ∨ e.files.isDir (base ++ directories name))
    (hfree : ¬ e.files.isDir (base ++ components name)) :
    (writeFile plat (deployDirectory plat ++ 47 :: name) data e).files =
        (withDirectory base (directories name) plat.time e.files).put (base ++ components name)
          (.file data plat.time true) ∧
      (writeFile plat (deployDirectory plat ++ 47 :: name) data e).count = e.count + 1 := by
  obtain ⟨leaf, hleaf⟩ := exists_components_eq hnormal.ne_nil hfile
  have hmade := make_parent_files hwrites hreach hroot hclosed
    (hnormal.directories_ordinary hfile)
  have hreached : ReachesDirectory plat base
      (withDirectory base (directories name) plat.time e.files) :=
    walk_mono (fun _ => is_dir_with_directory_of) hreach
  have hdir := (is_dir_with_directory_iff plat.time hparent hplace _).mpr (Or.inl rfl)
  have hstays : ¬ (withDirectory base (directories name) plat.time e.files).isDir
      (base ++ components name) := by
    rw [is_dir_with_directory_iff _ hparent hplace, not_or]
    refine ⟨fun hsame => ?_, hfree⟩
    have hlength := congrArg List.length (List.append_cancel_left hsame)
    simp [hleaf] at hlength
  have hcreate := create_below data hreached
    (closed_with_directory hparent hplace hclosed) hnormal hfile plat.time
  rw [if_pos ⟨hdir, hstays⟩] at hcreate
  obtain ⟨hfiles, hcount⟩ := write_file_eq hwrites (deployDirectory plat ++ 47 :: name) data e
  rw [hmade, hcreate] at hfiles hcount
  exact ⟨hfiles, hcount⟩

/-- A file whose directory lies in one that is not there is not stored. -/
theorem write_file_of_no_parent (data : Bytes) (hwrites : WritesSucceed plat)
    (hreach : ReachesDirectory plat base e.files) (hroot : e.files.isDir base)
    (hclosed : Closed e.files base) (hnormal : IsNormal name) (hfile : ¬ EndsInSlash name)
    (hparent : ¬ e.files.isDir (base ++ (directories name).dropLast)) :
    (writeFile plat (deployDirectory plat ++ 47 :: name) data e).count = e.count := by
  have hmade := make_parent_files hwrites hreach hroot hclosed
    (hnormal.directories_ordinary hfile)
  have hsame : withDirectory base (directories name) plat.time e.files = e.files :=
    if_neg fun h => hparent h.1
  have hnodir : ¬ e.files.isDir (base ++ directories name) := by
    intro hdir
    by_cases hnil : directories name = []
    · rw [hnil] at hparent
      exact hparent (by simpa using hroot)
    · exact hparent (hclosed _ hnil hdir)
  have hcreate := create_below data hreach hclosed hnormal hfile plat.time
  rw [if_neg fun h => hnodir h.1] at hcreate
  obtain ⟨-, hcount⟩ := write_file_eq hwrites (deployDirectory plat ++ 47 :: name) data e
  rw [hmade, hsame, hcreate] at hcount
  exact hcount

end Write

end Dvws
