import Dvws.Deployment.Extraction

/-!
# Where an archive is extracted to

`deploy_site` joins the names of an archive to the deployment directory as they are. A name stays
inside when its components, collapsed, do not climb, or go down again by the very names of the
deployment directory that they have climbed (`StaysInside`). The paths of the calls lead to the
deployment directory or below it exactly when that is so of every name, and of its part before
the last slash, for which a directory is made.
-/

namespace Dvws

open Effect Files

/-- A path leads to the deployment directory or to a place below it. -/
def InDeployDirectory (plat : Platform) (path : Bytes) : Prop :=
  normalize plat.cwd (deployDirectory plat) <+: normalize plat.cwd path

/-- Names that go down by the levels of the place that they have climbed from it. -/
def StaysInside (base : Location) (names : List Bytes) : Prop :=
  base.drop (base.length - (collapse names).1) <+: (collapse names).2

/-- The name of an entry stays inside, and so does the directory of it. -/
def NameStaysInside (base : Location) (name : Bytes) : Prop :=
  StaysInside base (components name) ∧
    ∀ dir ∈ parentPath name, StaysInside base (components dir)

/-- The entry is not written, or its name stays inside. -/
def EntryStaysInside (base : Location) (entry : ZipEntry) : Prop :=
  ∀ name ∈ entry.name, entry.data ≠ none → NameStaysInside base (entryText name)

section Paths

variable {plat : Platform}

/-- A path below the deployment directory leads inside when its names stay inside. -/
theorem in_deploy_directory_iff (name : Bytes) :
    InDeployDirectory plat (deployDirectory plat ++ 47 :: name) ↔
      StaysInside (normalize plat.cwd (deployDirectory plat)) (components name) := by
  unfold InDeployDirectory StaysInside
  rw [normalize_join (deploy_directory_ne_nil plat), inside_iff]

/-- The paths of a `write_file` call lead inside when the name does. -/
theorem write_paths_inside_iff (plat : Platform) (name : Bytes) :
    (∀ path ∈ writePaths (deployDirectory plat ++ 47 :: name), InDeployDirectory plat path) ↔
      NameStaysInside (normalize plat.cwd (deployDirectory plat)) name := by
  unfold writePaths NameStaysInside
  rw [parent_path_join]
  cases hdir : parentPath name with
  | none =>
      have hself : InDeployDirectory plat (deployDirectory plat) := List.prefix_refl _
      simp [in_deploy_directory_iff, hself]
  | some dir => simp [in_deploy_directory_iff, and_comm]

/-- The paths of an entry lead inside when the entry does. -/
theorem entry_paths_inside_iff (entry : ZipEntry) :
    (∀ path ∈ entryPaths plat entry, InDeployDirectory plat path) ↔
      EntryStaysInside (normalize plat.cwd (deployDirectory plat)) entry := by
  unfold entryPaths EntryStaysInside writeCall
  cases hname : entry.name with
  | none => simp
  | some name =>
      cases hdata : entry.data with
      | none => simp
      | some data =>
          have hwrite := write_paths_inside_iff plat (entryText name)
          simpa using hwrite

end Paths

/-- `deploy_site` creates and opens nothing but at the paths it uses, and these lead to the
deployment directory or below it exactly when the names of the entries stay inside. -/
theorem deployment_stays_inside_iff (plat : Platform) (req : HttpRequest) (s : Server) :
    (∀ event ∈ (deploySite plat req s).events, ∀ path ∈ event.createdPath,
        path ∈ usedPaths plat req) ∧
      ((∀ path ∈ usedPaths plat req, InDeployDirectory plat path) ↔
        ∀ entries ∈ archive plat req, ∀ entry ∈ entries,
          EntryStaysInside (normalize plat.cwd (deployDirectory plat)) entry) := by
  have huses : Behaves (Event.Uses (usedPaths plat req)) id (deploySite plat req) :=
    deploy_site_uses plat req
  refine ⟨huses.events s, ?_⟩
  have hself : InDeployDirectory plat (deployDirectory plat) := List.prefix_refl _
  unfold usedPaths
  cases harchive : archive plat req with
  | none => simp [hself]
  | some entries =>
      simp only [Option.getD_some, List.forall_mem_cons, hself, true_and, List.mem_flatMap,
        Option.mem_def, Option.some.injEq, forall_eq', ← entry_paths_inside_iff]
      constructor
      · intro hpaths entry hentry path hpath
        exact hpaths path ⟨entry, hentry, hpath⟩
      · intro hentries path hpath
        obtain ⟨entry, hentry, hpath⟩ := hpath
        exact hentries entry hentry path hpath

/-- An archive with one entry, whose name climbs. -/
def slippingArchive : List ZipEntry := [⟨some (lit "../../index.html"), some (lit "page")⟩]

/-- The disk has a document root. -/
def documentRoot : FileTree := fun loc =>
  if loc = [] ∨ loc = [lit "srv"] then some (.dir [] 0 4096 true) else none

/-- The server that is sent this archive. -/
def slippedPlatform : Platform :=
  { Platform.bare with files := documentRoot, zipReader := fun _ => some slippingArchive }

/-- The file whose name leads up is written into the root of the disk. -/
theorem deployment_leaves_directory :
    ∃ event ∈ (deploySite slippedPlatform deployRequest .init).events,
      ∃ path ∈ event.createdPath, ¬ InDeployDirectory slippedPlatform path := by
  have harchive : archive slippedPlatform deployRequest = some slippingArchive := by decide +kernel
  have hevents : (extraction slippedPlatform slippingArchive).events =
      [.makeDir (lit "/srv/deploy"), .makeDir (lit "/srv/deploy/../.."),
        .writeFile (lit "/srv/deploy/../../index.html") (lit "page")] := by decide +kernel
  refine ⟨.writeFile (lit "/srv/deploy/../../index.html") (lit "page"), ?_, _, rfl, ?_⟩
  · rw [deploy_site_of_archive harchive, bind_run_of_ok (emitAll_run _ _), hevents]
    simp
  · unfold InDeployDirectory
    decide +kernel

end Dvws
