import Dvws.Handlers.Admin

/-!
# Deploying an archive

`handlers/deploy.cpp`. The body of the request is handed to the ZIP reader, and each entry is
written below the deployment directory under the name it has in the archive. The extraction runs
on the file tree, which decides which `mkdir` and `fopen` calls succeed.
-/

namespace Dvws

open Effect Files

/-- The extraction so far: the files, the number of files written, and the calls made. -/
structure Extraction where
  files : FileTree
  count : Nat
  events : List Event

/-- The part of a path before its last slash. -/
def parentPath (path : Bytes) : Option Bytes :=
  if 47 ∈ path then some ((path.reverse.dropWhile (· ≠ 47)).drop 1).reverse else none

/-- A `mkdir` call. -/
def Extraction.mkdir (plat : Platform) (path : Bytes) (e : Extraction) : Extraction :=
  { e with
    files := if plat.canCreate path then Files.makeDir e.files plat.cwd path plat.time else e.files
    events := e.events ++ [.makeDir path] }

/-- `ensure_deploy_directory`. -/
def ensureDeployDirectory (plat : Platform) (path : Bytes) (e : Extraction) : Extraction :=
  if stat e.files plat.cwd path = none then e.mkdir plat path else e

/-- The part of `write_file` that makes the parent directory, one level only. -/
def makeParent (plat : Platform) (path : Bytes) (e : Extraction) : Extraction :=
  match parentPath path with
  | some dir => e.mkdir plat dir
  | none => e

/-- `write_file`. The file counts when all of its bytes were stored. -/
def writeFile (plat : Platform) (path data : Bytes) (start : Extraction) : Extraction :=
  let e := makeParent plat path start
  let stored := data.take (plat.stored path data)
  match createFile e.files plat.cwd path stored plat.time with
  | none => e
  | some files =>
      if plat.canCreate path then
        { files := files
          count := if stored.length = data.length then e.count + 1 else e.count
          events := e.events ++ [.writeFile path stored] }
      else e

/-- One turn of the extraction loop. `mz_zip_reader_get_filename` copies at most 511 bytes of the
name and returns their number plus one for the NUL. -/
def deployEntry (plat : Platform) (deployDir : Bytes) (e : Extraction) (entry : ZipEntry) :
    Extraction :=
  match entry.name with
  | none => e
  | some name =>
      let filename := name.take 511 ++ [0]
      let filenameLen := filename.length
      -- the last byte that counts is the NUL itself
      if filename[filenameLen - 1]? = some 47 then e
      else
        let outputPath := (deployDir ++ lit "/" ++ cstr filename).take 1023
        match entry.data with
        | none => e
        | some data => writeFile plat outputPath data e

/-- The deployment directory. -/
def deployDirectory (plat : Platform) : Bytes := (cstr plat.serverDir ++ lit "/deploy").take 511

/-- `length` bytes of memory from an offset in the request buffer on. -/
def readMemory (plat : Platform) (buffer : Bytes) (offset length : Nat) : Bytes :=
  (List.range length).map fun i => buffer.getD (offset + i) (plat.beyond (offset + i))

/-- `deploy_site`. -/
def deploySite (plat : Platform) (req : HttpRequest) : Handler Unit := do
  let contentLength ← lift (header req.text (lit "Content-Length"))
  if contentLength = [] then sendError plat req (lit "Missing Content-Length.")
  else
    let contentLen := strtoul contentLength
    if contentLen = 0 ∨ 10 * 1024 * 1024 < contentLen then
      sendError plat req (lit "Invalid content length.")
    else
      match Text.find (lit "\r\n\r\n") req.text with
      | none => sendError plat req (lit "Malformed request - no body delimiter.")
      | some blankLine =>
          if plat.malloc contentLen then do
            let zipData := readMemory plat req.raw (blankLine + 4) contentLen
            let deployDir := deployDirectory plat
            let ready := ensureDeployDirectory plat deployDir ⟨plat.files, 0, []⟩
            match plat.zipReader zipData with
            | none => do
                emitAll ready.events
                sendError plat req (lit "Invalid ZIP archive.")
            | some entries => do
                let done := entries.foldl (deployEntry plat deployDir) ready
                emitAll done.events
                sendSuccess plat req
                  (lit "Deployed " ++ toDecimal done.count ++ lit " files to /deploy/")
          else sendError plat req (lit "Memory allocation failed.")

/-- The calls of an extraction are plain. -/
def Extraction.Plain (e : Extraction) : Prop := ∀ event ∈ e.events, PlainEvent event

/-- The calls of an extraction have this property. -/
def Extraction.Calls (p : Event → Prop) (e : Extraction) : Prop := ∀ event ∈ e.events, p event

section Calls

variable {p : Event → Prop} {e : Extraction} (hdir : ∀ path, p (.makeDir path))
  (hfile : ∀ path data, p (.writeFile path data))

include hdir

/-- A `mkdir` call counts as one of the calls of an extraction. -/
theorem Extraction.Calls.mkdir (he : e.Calls p) (plat : Platform) (path : Bytes) :
    (e.mkdir plat path).Calls p := by
  intro event hevent
  obtain hevent | hevent := List.mem_append.mp hevent
  · exact he event hevent
  · rw [List.mem_singleton.mp hevent]
    exact hdir path

include hfile

/-- `write_file` makes at most two calls. -/
theorem Extraction.Calls.write_file (he : e.Calls p) (plat : Platform) (path data : Bytes) :
    (writeFile plat path data e).Calls p := by
  have hparent : (makeParent plat path e).Calls p := by
    unfold makeParent
    split
    · exact he.mkdir hdir plat _
    · exact he
  unfold writeFile
  dsimp only
  split
  · exact hparent
  · split
    · intro event hevent
      obtain hevent | hevent := List.mem_append.mp hevent
      · exact hparent event hevent
      · rw [List.mem_singleton.mp hevent]
        exact hfile path _
    · exact hparent

/-- One entry is deployed by such calls. -/
theorem Extraction.Calls.deploy_entry (he : e.Calls p) (plat : Platform) (deployDir : Bytes)
    (entry : ZipEntry) : (deployEntry plat deployDir e entry).Calls p := by
  unfold deployEntry
  cases entry.name with
  | none => exact he
  | some name =>
      dsimp only
      split
      · exact he
      · cases entry.data with
        | none => exact he
        | some data => exact he.write_file hdir hfile plat _ data

/-- All entries are deployed by such calls. -/
theorem Extraction.Calls.deploy_entries (he : e.Calls p) (plat : Platform) (deployDir : Bytes)
    (entries : List ZipEntry) : (entries.foldl (deployEntry plat deployDir) e).Calls p := by
  induction entries generalizing e with
  | nil => exact he
  | cons entry entries ih => exact ih (he.deploy_entry hdir hfile plat deployDir entry)

omit hfile in
/-- The deployment directory is made by such a call. -/
theorem ensure_deploy_directory_calls (plat : Platform) (deployDir : Bytes) :
    (ensureDeployDirectory plat deployDir ⟨plat.files, 0, []⟩).Calls p := by
  have hstart : Extraction.Calls p ⟨plat.files, 0, []⟩ := fun _ hevent => nomatch hevent
  unfold ensureDeployDirectory
  split
  · exact hstart.mkdir hdir plat _
  · exact hstart

end Calls

/-- `deploy_site` is plain. -/
theorem deploy_site_behaves {κ : Type} {keep : Server → κ} {plat : Platform} (req : HttpRequest) :
    Behaves PlainEvent keep (deploySite plat req) := by
  have hdir (path : Bytes) : PlainEvent (.makeDir path) := trivial
  have hready : (ensureDeployDirectory plat (deployDirectory plat) ⟨plat.files, 0, []⟩).Plain :=
    ensure_deploy_directory_calls hdir plat _
  have hdone (entries : List ZipEntry) : Extraction.Plain _ :=
    Extraction.Calls.deploy_entries hdir (fun _ _ => trivial) hready plat (deployDirectory plat)
      entries
  refine .bind (.lift (extract_header_value_returns ..)) fun contentLength => ?_
  refine .ite (send_error_behaves ..) (.ite (send_error_behaves ..) ?_)
  split
  · exact send_error_behaves ..
  · refine .ite ?_ (send_error_behaves ..)
    dsimp only
    split
    · exact .bind (.emitAll hready) fun _ => send_error_behaves ..
    · exact .bind (.emitAll (hdone _)) fun _ => send_success_behaves ..

end Dvws
