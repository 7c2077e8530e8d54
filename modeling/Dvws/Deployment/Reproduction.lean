import Dvws.Deployment.Writing

/-!
# When an archive is reproduced

An archive of files in normal form, extracted into an empty deployment directory, is reproduced
when no entry is a directory and every file comes after one in the directory above its own, if
that is not the deployment directory itself (`ParentsFirst`): `write_file` makes one directory for
each file. The first file that does not is not stored, and so is missing from the count.
-/

namespace Dvws

open Effect Files

/-- The entries of an archive whose names and data can be read. -/
def entriesOf (files : List (Bytes × Bytes)) : List ZipEntry :=
  files.map fun file => ⟨some file.1, some file.2⟩

/-- The place of the deployment directory. -/
def deployLocation (plat : Platform) : Location := normalize plat.cwd (deployDirectory plat)

/-- Every file lies in the deployment directory, in a directory there, or in one below that of
an earlier file. -/
def ParentsFirst (files : List (Bytes × Bytes)) : Prop :=
  ∀ before file after, files = before ++ file :: after →
    (directories file.1).dropLast = [] ∨
      ∃ other ∈ before, directories other.1 = (directories file.1).dropLast

/-- The names are in normal form and fit, and none is a file where another needs a directory. -/
structure WellNamed (files : List (Bytes × Bytes)) : Prop where
  normal : ∀ file ∈ files, IsNormal file.1 ∧ file.1.length ≤ 511
  apart : ∀ file ∈ files, ∀ other ∈ files, ¬ EndsInSlash file.1 →
    ¬ components file.1 <+: directories other.1

/-- The deployment directory is there, and there is nothing in it. -/
structure StartsEmpty (plat : Platform) : Prop where
  present : ∃ node, stat plat.files plat.cwd (deployDirectory plat) =
    some (deployLocation plat, node) ∧ node.isDir = true
  empty : ∀ rel, rel ≠ [] → plat.files (deployLocation plat ++ rel) = none

/-- What a deployment should do: call nothing for directories, store the latest data of every
file and no other file, and count the files. -/
structure Reproduces (plat : Platform) (files : List (Bytes × Bytes)) : Prop where
  calls : ∀ file ∈ files, EndsInSlash file.1 → ∀ e,
    (deployEntry plat (deployDirectory plat) e ⟨some file.1, some file.2⟩).events = e.events
  contents : ∀ name data, ¬ EndsInSlash name → files.reverse.lookup name = some data →
    ∃ mtime readable, (extraction plat (entriesOf files)).files
      (deployLocation plat ++ components name) = some (.file data mtime readable)
  only : ∀ rel content mtime readable, (extraction plat (entriesOf files)).files
      (deployLocation plat ++ rel) = some (.file content mtime readable) →
    ∃ file ∈ files, ¬ EndsInSlash file.1 ∧ rel = components file.1
  count : (extraction plat (entriesOf files)).count =
    files.countP fun file => ¬ EndsInSlash file.1

/-- The names of all entries are those of files, and every file finds its directory. -/
structure Arranged (files : List (Bytes × Bytes)) : Prop where
  plain : ∀ file ∈ files, ¬ EndsInSlash file.1 ∧ 0 ∉ file.1
  parents : ParentsFirst files

/-! ## Files that find their directories -/

/-- The tree holds these files below the base, and the directories they are in. -/
structure Holds (base : Location) (files : List (Bytes × Bytes)) (tree : FileTree) : Prop where
  root : tree.isDir base
  directory : ∀ rel, rel ≠ [] →
    (tree.isDir (base ++ rel) ↔ ∃ file ∈ files, directories file.1 = rel)
  contents : ∀ name data, files.reverse.lookup name = some data →
    ∃ mtime readable, tree (base ++ components name) = some (.file data mtime readable)
  only : ∀ rel, rel ≠ [] → tree (base ++ rel) ≠ none →
    ∃ file ∈ files, directories file.1 = rel ∨ components file.1 = rel

section Holds

variable {base : Location} {files : List (Bytes × Bytes)} {tree : FileTree}

/-- The initial part of such a list is one. -/
theorem ParentsFirst.of_append {first second : List (Bytes × Bytes)}
    (h : ParentsFirst (first ++ second)) : ParentsFirst first := by
  intro before file after hsplit
  refine h before file (after ++ second) ?_
  rw [hsplit, List.append_assoc, List.cons_append]

/-- The last file of such a list finds its directory. -/
theorem ParentsFirst.last {file : Bytes × Bytes} (h : ParentsFirst (files ++ [file])) :
    (directories file.1).dropLast = [] ∨
      ∃ other ∈ files, directories other.1 = (directories file.1).dropLast :=
  h files file [] rfl

/-- A list is extended by a file that finds its directory. -/
theorem ParentsFirst.concat {file : Bytes × Bytes} (h : ParentsFirst files)
    (hlast : (directories file.1).dropLast = [] ∨
      ∃ other ∈ files, directories other.1 = (directories file.1).dropLast) :
    ParentsFirst (files ++ [file]) := by
  intro before other after hsplit
  obtain rfl | ⟨after, last, rfl⟩ := List.eq_nil_or_concat after
  · obtain ⟨rfl, hsame⟩ := List.append_inj' hsplit rfl
    obtain rfl := List.singleton_inj.mp hsame
    exact hlast
  · rw [List.concat_eq_append, ← List.cons_append, ← List.append_assoc] at hsplit
    obtain ⟨rfl, -⟩ := List.append_inj' hsplit rfl
    exact h before other after rfl

/-- The deployment directory and every directory in it have their own directory. -/
theorem Holds.closed (h : Holds base files tree) (hparents : ParentsFirst files) :
    Closed tree base := by
  intro rel hne hdir
  obtain ⟨file, hfile, rfl⟩ := (h.directory rel hne).mp hdir
  obtain ⟨before, after, hsplit⟩ := List.append_of_mem hfile
  by_cases hnil : (directories file.1).dropLast = []
  · rw [hnil, List.append_nil]
    exact h.root
  · obtain ⟨other, hother, hsame⟩ := (hparents before file after hsplit).resolve_left hnil
    refine (h.directory _ hnil).mpr ⟨other, ?_, hsame⟩
    rw [hsplit]
    exact List.mem_append_left _ hother

/-- What is looked up in a list is in it. -/
theorem mem_of_lookup_reverse {name data : Bytes} (h : files.reverse.lookup name = some data) :
    (name, data) ∈ files := by
  obtain ⟨before, after, hsplit, -⟩ := List.lookup_eq_some_iff.mp h
  refine List.mem_reverse.mp ?_
  rw [hsplit]
  exact List.mem_append_right _ List.mem_cons_self

/-- The first of well-named files are well named. -/
theorem WellNamed.of_append {first second : List (Bytes × Bytes)}
    (h : WellNamed (first ++ second)) : WellNamed first where
  normal file hfile := h.normal file (List.mem_append_left _ hfile)
  apart file hfile other hother :=
    h.apart file (List.mem_append_left _ hfile) other (List.mem_append_left _ hother)

section Concat

variable {plat : Platform} {file : Bytes × Bytes}

/-- The directory above that of the next file is there. -/
theorem Holds.parent_of_concat (h : Holds base files tree)
    (hparents : ParentsFirst (files ++ [file])) :
    tree.isDir (base ++ (directories file.1).dropLast) := by
  by_cases hnil : (directories file.1).dropLast = []
  · rw [hnil, List.append_nil]
    exact h.root
  · exact (h.directory _ hnil).mpr (hparents.last.resolve_left hnil)

/-- Nothing but a directory has the place of its directory. -/
theorem Holds.place_of_concat (h : Holds base files tree) (hnamed : WellNamed (files ++ [file]))
    (hplain : ∀ other ∈ files, ¬ EndsInSlash other.1) :
    tree (base ++ directories file.1) = none ∨ tree.isDir (base ++ directories file.1) := by
  by_cases hnil : directories file.1 = []
  · rw [hnil, List.append_nil]
    exact Or.inr h.root
  by_cases hnone : tree (base ++ directories file.1) = none
  · exact Or.inl hnone
  obtain ⟨other, hother, hdir | hclash⟩ := h.only _ hnil hnone
  · exact Or.inr ((h.directory _ hnil).mpr ⟨other, hother, hdir⟩)
  · have hmem : other ∈ files ++ [file] := List.mem_append_left _ hother
    have hapart := hnamed.apart other hmem file (by simp) (hplain other hother)
    rw [hclash] at hapart
    exact absurd (List.prefix_refl _) hapart

/-- No directory has the place of the next file. -/
theorem Holds.free_of_concat (h : Holds base files tree) (hnamed : WellNamed (files ++ [file]))
    (hplain : ¬ EndsInSlash file.1) : ¬ tree.isDir (base ++ components file.1) := by
  obtain ⟨leaf, hleaf⟩ := exists_components_eq (hnamed.normal file (by simp)).1.ne_nil hplain
  intro hdir
  obtain ⟨other, hother, hsame⟩ := (h.directory _ (by simp [hleaf])).mp hdir
  have hapart := hnamed.apart file (by simp) other (List.mem_append_left _ hother) hplain
  rw [hsame] at hapart
  exact hapart (List.prefix_refl _)

/-- The tree with the next file and its directory holds all files. -/
theorem Holds.concat (h : Holds base files tree) (hparents : ParentsFirst (files ++ [file]))
    (hnamed : WellNamed (files ++ [file]))
    (hplain : ∀ other ∈ files ++ [file], ¬ EndsInSlash other.1) (now : Int) :
    Holds base (files ++ [file])
      ((withDirectory base (directories file.1) now tree).put (base ++ components file.1)
        (.file file.2 now true)) := by
  have hfile : ¬ EndsInSlash file.1 := hplain file (by simp)
  have hfiles : ∀ other ∈ files, ¬ EndsInSlash other.1 := fun other hother =>
    hplain other (List.mem_append_left _ hother)
  have hnormal : IsNormal file.1 := (hnamed.normal file (by simp)).1
  obtain ⟨leaf, hleaf⟩ := exists_components_eq hnormal.ne_nil hfile
  have hne : components file.1 ≠ [] := by simp [hleaf]
  have hdirs := is_dir_with_directory_iff now (h.parent_of_concat hparents)
    (h.place_of_concat hnamed hfiles)
  constructor
  case root =>
    rw [is_dir_put, if_neg fun hbase => hne (List.self_eq_append_right.mp hbase)]
    exact is_dir_with_directory_of h.root
  case directory =>
    intro rel hrel
    rw [is_dir_put]
    by_cases hsame : rel = components file.1
    · rw [if_pos (congrArg _ hsame)]
      constructor
      · intro hdir
        exact absurd hdir Bool.false_ne_true
      · intro hdir
        obtain ⟨other, hother, hclash⟩ := hdir
        have hapart := hnamed.apart file (by simp) other hother hfile
        rw [hclash, hsame] at hapart
        exact absurd (List.prefix_refl _) hapart
    · rw [if_neg fun heq => hsame (List.append_cancel_left heq), hdirs, h.directory rel hrel,
        List.append_cancel_left_eq]
      simp [List.mem_append, or_and_right, exists_or, eq_comm, or_comm]
  case contents =>
    intro name data hlookup
    rw [List.reverse_append, List.reverse_singleton, List.singleton_append] at hlookup
    change List.lookup name ((file.1, file.2) :: files.reverse) = some data at hlookup
    rw [List.lookup_cons] at hlookup
    by_cases hsame : name = file.1
    · simp only [beq_iff_eq.mpr hsame, Option.some.injEq] at hlookup
      rw [hsame, ← hlookup]
      exact ⟨now, true, put_self _⟩
    · simp only [beq_eq_false_iff_ne.mpr hsame] at hlookup
      obtain ⟨mtime, readable, hthere⟩ := h.contents name data hlookup
      refine ⟨mtime, readable, put_eq_file (fun heq => hsame ?_) (with_directory_eq_file hthere)⟩
      have hmem := mem_of_lookup_reverse hlookup
      exact (hnamed.normal _ (List.mem_append_left _ hmem)).1.components_inj hnormal
        (hfiles _ hmem) hfile (List.append_cancel_left heq)
  case only =>
    intro rel hrel hthere
    by_cases hsame : rel = components file.1
    · exact ⟨file, by simp, Or.inr hsame.symm⟩
    rw [Ne, put_eq_none_iff _ fun heq => hsame (List.append_cancel_left heq)] at hthere
    by_cases hdir : rel = directories file.1
    · exact ⟨file, by simp, Or.inl hdir.symm⟩
    rw [with_directory_eq_none_iff fun heq => hdir (List.append_cancel_left heq)] at hthere
    obtain ⟨other, hother, hplace⟩ := h.only rel hrel hthere
    exact ⟨other, List.mem_append_left _ hother, hplace⟩

end Concat

end Holds

/-! ## The whole archive -/

section Run

variable {plat : Platform} {files : List (Bytes × Bytes)}

/-- The text of a name that fits and has no NUL is the name. -/
theorem entry_text_of_plain {name : Bytes} (hlength : name.length ≤ 511) (hplain : 0 ∉ name) :
    entryText name = name := by
  rw [entryText, List.take_of_length_le hlength, cstr_of_not_mem hplain]

/-- One more entry is one more `write_file` call. -/
theorem extraction_concat (file : Bytes × Bytes) :
    extraction plat (entriesOf (files ++ [file])) =
      writeFile plat (deployDirectory plat ++ 47 :: entryText file.1) file.2
        (extraction plat (entriesOf files)) := by
  unfold extraction entriesOf
  rw [List.map_append, List.map_singleton, List.foldl_append, List.foldl_cons, List.foldl_nil,
    deploy_entry_eq]
  rfl

/-- A file counts at most once. -/
theorem write_file_count_le (plat : Platform) (path data : Bytes) (e : Extraction) :
    (writeFile plat path data e).count ≤ e.count + 1 := by
  unfold writeFile
  dsimp only
  split
  · rw [make_parent_count]
    exact Nat.le_succ _
  · split
    · dsimp only
      split
      · rw [make_parent_count]
      · rw [make_parent_count]
        exact Nat.le_succ _
    · rw [make_parent_count]
      exact Nat.le_succ _

/-- The path of a directory that is there leads to it. -/
theorem StartsEmpty.reaches (h : StartsEmpty plat) :
    ReachesDirectory plat (deployLocation plat) plat.files := by
  obtain ⟨node, hstat, -⟩ := h.present
  exact (walk_of_stat hstat).1

/-- The extraction starts with the files that are there. -/
theorem StartsEmpty.start (h : StartsEmpty plat) :
    startExtraction plat = ⟨plat.files, 0, []⟩ := by
  obtain ⟨node, hstat, -⟩ := h.present
  unfold startExtraction ensureDeployDirectory
  refine if_neg fun hnone => ?_
  rw [hstat] at hnone
  cases hnone

/-- An empty deployment directory holds no files. -/
theorem StartsEmpty.holds (h : StartsEmpty plat) :
    Holds (deployLocation plat) [] plat.files := by
  obtain ⟨node, hstat, hdir⟩ := h.present
  constructor
  case root =>
    rw [FileTree.isDir, (walk_of_stat hstat).2]
    exact hdir
  case directory =>
    intro rel hrel
    simp [FileTree.isDir, h.empty rel hrel]
  case contents =>
    intro name data hlookup
    cases hlookup
  case only =>
    intro rel hrel hthere
    exact absurd (h.empty rel hrel) hthere

/-- When every file finds its directory, the tree holds all files, and all of them count. -/
theorem holds_of_parents_first (hstart : StartsEmpty plat) (hwrites : WritesSucceed plat)
    (hnamed : WellNamed files) (hplain : ∀ file ∈ files, ¬ EndsInSlash file.1 ∧ 0 ∉ file.1)
    (hparents : ParentsFirst files) :
    Holds (deployLocation plat) files (extraction plat (entriesOf files)).files ∧
      ReachesDirectory plat (deployLocation plat) (extraction plat (entriesOf files)).files ∧
      (extraction plat (entriesOf files)).count = files.length := by
  induction files using List.reverseRecOn with
  | nil =>
      have hnone : extraction plat (entriesOf []) = ⟨plat.files, 0, []⟩ := hstart.start
      rw [hnone]
      exact ⟨hstart.holds, hstart.reaches, rfl⟩
  | append_singleton files file ih =>
      obtain ⟨hholds, hreach, hcount⟩ := ih hnamed.of_append
        (fun other hother => hplain other (List.mem_append_left _ hother)) hparents.of_append
      have hfiles : ∀ other ∈ files ++ [file], ¬ EndsInSlash other.1 :=
        fun other hother => (hplain other hother).1
      obtain ⟨hnormal, hlength⟩ := hnamed.normal file (by simp)
      obtain ⟨hfile, hnul⟩ := hplain file (by simp)
      obtain ⟨hwritten, hcounted⟩ := write_file_of_parent file.2 hwrites hreach
        hholds.root (hholds.closed hparents.of_append) hnormal hfile
        (hholds.parent_of_concat hparents)
        (hholds.place_of_concat hnamed fun other hother =>
          hfiles other (List.mem_append_left _ hother))
        (hholds.free_of_concat hnamed hfile)
      have hnext := hholds.concat hparents hnamed hfiles plat.time
      rw [extraction_concat, entry_text_of_plain hlength hnul, hwritten, hcounted, hcount]
      refine ⟨hnext, walk_mono (fun l hdir => ?_) hreach, by simp⟩
      have hother : l ≠ deployLocation plat ++ components file.1 := by
        rintro rfl
        exact hholds.free_of_concat hnamed hfile hdir
      rw [is_dir_put, if_neg hother]
      exact is_dir_with_directory_of hdir

/-- When some file does not find its directory, not all files count. -/
theorem count_lt_of_not_parents_first (hstart : StartsEmpty plat) (hwrites : WritesSucceed plat)
    (hnamed : WellNamed files) (hplain : ∀ file ∈ files, ¬ EndsInSlash file.1 ∧ 0 ∉ file.1)
    (hparents : ¬ ParentsFirst files) :
    (extraction plat (entriesOf files)).count < files.length := by
  induction files using List.reverseRecOn with
  | nil =>
      refine absurd (fun before file after hsplit => ?_) hparents
      simp at hsplit
  | append_singleton files file ih =>
      have hfiles : ∀ other ∈ files, ¬ EndsInSlash other.1 ∧ 0 ∉ other.1 :=
        fun other hother => hplain other (List.mem_append_left _ hother)
      rw [extraction_concat, List.length_append, List.length_singleton]
      by_cases hbefore : ParentsFirst files
      · obtain ⟨hholds, hreach, hcount⟩ :=
          holds_of_parents_first hstart hwrites hnamed.of_append hfiles hbefore
        obtain ⟨hnormal, hlength⟩ := hnamed.normal file (by simp)
        obtain ⟨hfile, hnul⟩ := hplain file (by simp)
        have hlast := fun hlast => hparents (hbefore.concat hlast)
        obtain ⟨hdeep, hnone⟩ := not_or.mp hlast
        have hmissing : ¬ (extraction plat (entriesOf files)).files.isDir
            (deployLocation plat ++ (directories file.1).dropLast) := fun hdir =>
          hnone ((hholds.directory _ hdeep).mp hdir)
        rw [entry_text_of_plain hlength hnul, write_file_of_no_parent file.2 hwrites hreach
          hholds.root (hholds.closed hbefore) hnormal hfile hmissing, hcount]
        exact Nat.lt_succ_self _
      · have hlt := ih hnamed.of_append hfiles hbefore
        have hle := write_file_count_le plat
          (deployDirectory plat ++ 47 :: entryText file.1) file.2
          (extraction plat (entriesOf files))
        omega

/-- When no name ends in a slash, all files count. -/
theorem countP_of_plain (h : ∀ file ∈ files, ¬ EndsInSlash file.1) :
    files.countP (fun file => ¬ EndsInSlash file.1) = files.length :=
  List.countP_eq_length.mpr fun file hfile => decide_eq_true (h file hfile)

/-- `write_file` is called for every entry, whatever its name ends in. -/
theorem deploy_entry_events_ne (file : Bytes × Bytes) (e : Extraction) :
    (deployEntry plat (deployDirectory plat) e ⟨some file.1, some file.2⟩).events ≠ e.events := by
  have hcalled := write_file_events_length plat (deployDirectory plat) (entryText file.1) file.2 e
  rw [deploy_entry_eq]
  intro hsame
  rw [← hsame] at hcalled
  exact absurd hcalled (lt_irrefl _)

/-- No place below the deployment directory has a NUL in its names. -/
theorem names_without_nul (hstart : StartsEmpty plat) (files : List (Bytes × Bytes))
    (rel : List Bytes)
    (hthere : (extraction plat (entriesOf files)).files (deployLocation plat ++ rel) ≠ none) :
    ∀ part ∈ rel, 0 ∉ part := by
  induction files using List.reverseRecOn with
  | nil =>
      have hnone : extraction plat (entriesOf []) = ⟨plat.files, 0, []⟩ := hstart.start
      rw [hnone] at hthere
      by_cases hrel : rel = []
      · simp [hrel]
      · exact absurd (hstart.empty rel hrel) hthere
  | append_singleton files file ih =>
      rw [extraction_concat] at hthere
      obtain hthere | hmade := made_of_write_file hthere
      · exact ih hthere
      obtain ⟨text, htext, hplace⟩ := hmade
      intro part hpart hnul
      have hin := subset_of_foldl_enter hplace hpart
      have hmem := (exists_mem_components_iff (by decide)).mp ⟨part, hin, hnul⟩
      exact zero_not_mem_cstr _ (htext.subset hmem)

/-- A file that is reproduced is no directory, and has no NUL in its name. -/
theorem Reproduces.plain (h : Reproduces plat files) (hstart : StartsEmpty plat) :
    ∀ file ∈ files, ¬ EndsInSlash file.1 ∧ 0 ∉ file.1 := by
  intro file hfile
  have hslash : ¬ EndsInSlash file.1 := fun hslash =>
    deploy_entry_events_ne file (startExtraction plat) (h.calls file hfile hslash _)
  refine ⟨hslash, fun hnul => ?_⟩
  obtain ⟨data, hlookup⟩ : ∃ data, files.reverse.lookup file.1 = some data := by
    refine Option.isSome_iff_exists.mp (List.lookup_isSome_iff.mpr ?_)
    exact ⟨file, List.mem_reverse.mpr hfile, beq_self_eq_true _⟩
  obtain ⟨mtime, readable, hthere⟩ := h.contents file.1 data hslash hlookup
  obtain ⟨part, hpart, hin⟩ := (exists_mem_components_iff (by decide)).mpr hnul
  refine names_without_nul hstart files (components file.1) ?_ part hpart hin
  rw [hthere]
  exact Option.some_ne_none _

/-- Only arranged archives are reproduced. -/
theorem Reproduces.arranged (h : Reproduces plat files) (hstart : StartsEmpty plat)
    (hwrites : WritesSucceed plat) (hnamed : WellNamed files) : Arranged files := by
  have hplain := h.plain hstart
  refine ⟨hplain, ?_⟩
  by_contra hparents
  have hall := countP_of_plain fun file hfile => (hplain file hfile).1
  have hlt := count_lt_of_not_parents_first hstart hwrites hnamed hplain hparents
  rw [h.count, hall] at hlt
  exact absurd hlt (lt_irrefl _)

/-- A file of the tree is one of the files it holds. -/
theorem Holds.file_of_there {base rel : Location} {tree : FileTree} {content : Bytes}
    {mtime : Int} {readable : Bool} (h : Holds base files tree)
    (hthere : tree (base ++ rel) = some (.file content mtime readable)) :
    ∃ file ∈ files, rel = components file.1 := by
  have hnodir : ¬ tree.isDir (base ++ rel) := by
    rw [FileTree.isDir, hthere]
    exact Bool.false_ne_true
  have hrel : rel ≠ [] := by
    rintro rfl
    rw [List.append_nil] at hnodir
    exact hnodir h.root
  have hsome : tree (base ++ rel) ≠ none := by
    rw [hthere]
    exact Option.some_ne_none _
  obtain ⟨file, hfile, hplace⟩ := h.only rel hrel hsome
  refine ⟨file, hfile, (hplace.resolve_left fun hdir => ?_).symm⟩
  exact hnodir ((h.directory rel hrel).mpr ⟨file, hfile, hdir⟩)

/-- Arranged archives are reproduced. -/
theorem Arranged.reproduces (h : Arranged files) (hstart : StartsEmpty plat)
    (hwrites : WritesSucceed plat) (hnamed : WellNamed files) : Reproduces plat files := by
  obtain ⟨hholds, -, hcount⟩ := holds_of_parents_first hstart hwrites hnamed h.plain h.parents
  constructor
  case calls =>
    intro file hfile hslash
    exact absurd hslash (h.plain file hfile).1
  case contents =>
    intro name data _ hlookup
    exact hholds.contents name data hlookup
  case only =>
    intro rel content mtime readable hthere
    obtain ⟨file, hfile, hplace⟩ := hholds.file_of_there hthere
    exact ⟨file, hfile, (h.plain file hfile).1, hplace⟩
  case count =>
    rw [hcount, countP_of_plain fun file hfile => (h.plain file hfile).1]

/-- An archive is reproduced exactly when it is arranged. -/
theorem reproduces_iff (hstart : StartsEmpty plat) (hwrites : WritesSucceed plat)
    (hnamed : WellNamed files) : Reproduces plat files ↔ Arranged files := by
  constructor
  · intro h
    exact h.arranged hstart hwrites hnamed
  · intro h
    exact h.reproduces hstart hwrites hnamed

end Run

/-- `deploy_site` reports the count of its extraction, and reproduces the archive exactly when it
is arranged. -/
theorem deployment_reproduces_iff (plat : Platform) (req : HttpRequest)
    (files : List (Bytes × Bytes)) (harchive : archive plat req = some (entriesOf files))
    (hstart : StartsEmpty plat) (hwrites : WritesSucceed plat) (hnamed : WellNamed files) :
    (deploySite plat req = (do
      emitAll (extraction plat (entriesOf files)).events
      sendSuccess plat req (lit "Deployed " ++
        toDecimal (extraction plat (entriesOf files)).count ++ lit " files to /deploy/"))) ∧
    (Reproduces plat files ↔ Arranged files) :=
  ⟨deploy_site_of_archive harchive, reproduces_iff hstart hwrites hnamed⟩

/-- The disk has an empty deployment directory. -/
def emptySite : FileTree := fun loc =>
  if loc = [] ∨ loc = [lit "srv"] ∨ loc = [lit "srv", lit "deploy"] then
    some (.dir [] 0 4096 true)
  else none

/-- The server with this disk, that reads these files in every archive. -/
def sitePlatform (files : List (Bytes × Bytes)) : Platform :=
  { Platform.bare with files := emptySite, zipReader := fun _ => some (entriesOf files) }

/-- The deployment directory of the site is empty at the start. -/
theorem site_starts_empty (files : List (Bytes × Bytes)) : StartsEmpty (sitePlatform files) := by
  have hplace : deployLocation (sitePlatform files) = [lit "srv", lit "deploy"] := rfl
  refine ⟨⟨.dir [] 0 4096 true, rfl, rfl⟩, fun rel hrel => ?_⟩
  rw [hplace]
  show emptySite _ = none
  unfold emptySite
  rw [if_neg (by simp [hrel])]

/-- No call of the site's deployment fails. -/
theorem site_writes_succeed (files : List (Bytes × Bytes)) : WritesSucceed (sitePlatform files) :=
  ⟨fun _ => rfl, fun _ _ => rfl⟩

/-- Files of which each finds its directory. -/
def siteFiles : List (Bytes × Bytes) :=
  [(lit "index.html", lit "page"), (lit "css/a.css", lit "b"), (lit "css/x/b.css", lit "a")]

/-- The three files of the site are reproduced. -/
theorem deployment_reproduces_iff_site : Reproduces (sitePlatform siteFiles) siteFiles := by
  have harchive : archive (sitePlatform siteFiles) deployRequest = some (entriesOf siteFiles) := by
    decide +kernel
  have hnamed : WellNamed siteFiles := ⟨by decide +kernel, by decide +kernel⟩
  refine (deployment_reproduces_iff _ deployRequest siteFiles harchive (site_starts_empty _)
    (site_writes_succeed _) hnamed).2.mpr ⟨by decide +kernel, ?_⟩
  have hnone : ParentsFirst [] := fun before file after hsplit => by simp at hsplit
  have hpage : ParentsFirst (siteFiles.take 1) :=
    ParentsFirst.concat hnone (Or.inl (by decide +kernel))
  have hstyle : ParentsFirst (siteFiles.take 2) :=
    ParentsFirst.concat hpage (Or.inl (by decide +kernel))
  exact ParentsFirst.concat hstyle
    (Or.inr ⟨(lit "css/a.css", lit "b"), by decide +kernel, by decide +kernel⟩)

/-- A file two directories deep. -/
def deepFile : List (Bytes × Bytes) := [(lit "a/b/c.txt", lit "text")]

/-- A file two directories deep is not stored, though nothing fails. -/
theorem deep_file_not_reproduced : StartsEmpty (sitePlatform deepFile) ∧
    WritesSucceed (sitePlatform deepFile) ∧ WellNamed deepFile ∧
      ¬ Reproduces (sitePlatform deepFile) deepFile := by
  refine ⟨site_starts_empty _, site_writes_succeed _, ?_, fun h => ?_⟩
  · exact ⟨by decide +kernel, by decide +kernel⟩
  · have hcount : (extraction (sitePlatform deepFile) (entriesOf deepFile)).count = 0 := by
      decide +kernel
    rw [h.count] at hcount
    exact absurd hcount (by decide)

end Dvws
