import Dvws.Files.Paths
import Dvws.Handlers.Deploy

/-!
# What an archive is extracted to

The test of `deploy_site` for names that end in a slash looks at the NUL behind the name, so it
never finds one: every entry with a name and data is handed to `write_file` (`deploy_entry_eq`),
under the deployment directory and the text of its name. `usedPaths` are the paths that the calls
of an extraction are made with.
-/

namespace Dvws

open Effect Files

/-- The entries of the archive in the body of a request that `deploy_site` accepts. -/
def archive (plat : Platform) (req : HttpRequest) : Option (List ZipEntry) :=
  match header req.text (lit "Content-Length") with
  | .error _ => none
  | .ok contentLength =>
      let contentLen := strtoul contentLength
      if contentLength = [] ∨ contentLen = 0 ∨ 10 * 1024 * 1024 < contentLen then none
      else
        match Text.find (lit "\r\n\r\n") req.text with
        | none => none
        | some blankLine =>
            if plat.malloc contentLen then
              plat.zipReader (readMemory plat req.raw (blankLine + 4) contentLen)
            else none

/-- The extraction before its first entry. -/
def startExtraction (plat : Platform) : Extraction :=
  ensureDeployDirectory plat (deployDirectory plat) ⟨plat.files, 0, []⟩

/-- The extraction of these entries. -/
def extraction (plat : Platform) (entries : List ZipEntry) : Extraction :=
  entries.foldl (deployEntry plat (deployDirectory plat)) (startExtraction plat)

/-- Where the body of a request starts that passes the checks of `deploy_site`, and how long it is
declared to be. -/
def acceptedBody (plat : Platform) (req : HttpRequest) : Option (Nat × Nat) :=
  match header req.text (lit "Content-Length") with
  | .error _ => none
  | .ok contentLength =>
      let contentLen := strtoul contentLength
      if contentLength = [] ∨ contentLen = 0 ∨ 10 * 1024 * 1024 < contentLen then none
      else
        match Text.find (lit "\r\n\r\n") req.text with
        | none => none
        | some blankLine =>
            if plat.malloc contentLen then some (blankLine + 4, contentLen) else none

/-- What `deploy_site` does with the copy of the body. -/
def deployBody (plat : Platform) (req : HttpRequest) (zipData : Bytes) : Handler Unit :=
  match plat.zipReader zipData with
  | none => do
      emitAll (startExtraction plat).events
      sendError plat req (lit "Invalid ZIP archive.")
  | some entries => do
      emitAll (extraction plat entries).events
      sendSuccess plat req (lit "Deployed " ++ toDecimal (extraction plat entries).count ++
        lit " files to /deploy/")

/-- The text of an entry's name, as far as it fits the buffer. -/
def entryText (name : Bytes) : Bytes := cstr (name.take 511)

/-- The path and the data of the `write_file` call for an entry. -/
def writeCall (deployDir : Bytes) (entry : ZipEntry) : Option (Bytes × Bytes) :=
  match entry.name, entry.data with
  | some name, some data => some (deployDir ++ 47 :: entryText name, data)
  | _, _ => none

/-- The deployment directory fits its buffer. -/
theorem deploy_directory_length (plat : Platform) : (deployDirectory plat).length ≤ 511 :=
  List.length_take_le _ _

/-- The deployment directory is not the empty path. -/
theorem deploy_directory_ne_nil (plat : Platform) : deployDirectory plat ≠ [] := by
  intro h
  have hnil : cstr plat.serverDir ++ lit "/deploy" = [] :=
    (List.take_eq_nil_iff.mp h).resolve_left (by decide)
  exact absurd (List.append_eq_nil_iff.mp hnil).2 (by decide)

/-- A path below the deployment directory fits its buffer, too. -/
theorem output_path_eq (plat : Platform) (name : Bytes) :
    (deployDirectory plat ++ lit "/" ++ cstr (name.take 511 ++ [0])).take 1023 =
      deployDirectory plat ++ 47 :: entryText name := by
  have htext : (entryText name).length ≤ 511 :=
    (List.takeWhile_prefix _).length_le.trans (List.length_take_le _ _)
  have hdir := deploy_directory_length plat
  -- the NUL that ends the name in the buffer is not part of its text
  have hzero : cstr (name.take 511 ++ [0]) = cstr (name.take 511) := cstr_append_zeros _ 1
  rw [hzero, ← entryText, List.take_of_length_le, List.append_assoc]
  · rfl
  · have hslash : (lit "/").length = 1 := rfl
    rw [List.length_append, List.length_append, hslash]
    omega

/-- Every entry with a name and data is written, whatever its name ends in. -/
theorem deploy_entry_eq (plat : Platform) (e : Extraction) (entry : ZipEntry) :
    deployEntry plat (deployDirectory plat) e entry =
      match writeCall (deployDirectory plat) entry with
      | none => e
      | some (path, data) => writeFile plat path data e := by
  unfold deployEntry writeCall
  cases entry.name with
  | none => rfl
  | some name =>
      have hlast : (name.take 511 ++ [0])[(name.take 511 ++ [0]).length - 1]? = some 0 := by simp
      dsimp only
      rw [hlast, if_neg (by decide), output_path_eq]
      cases entry.data with
      | none => rfl
      | some data => rfl

/-- A request that does not pass the checks is answered with an error. -/
theorem deploy_site_of_rejected {plat : Platform} {req : HttpRequest}
    (h : acceptedBody plat req = none) :
    ∃ message, deploySite plat req = sendError plat req message := by
  obtain ⟨contentLength, hheader⟩ : ∃ value,
      header req.text (lit "Content-Length") = .ok value := extract_header_value_returns ..
  unfold acceptedBody at h
  unfold deploySite
  rw [hheader] at h
  rw [hheader, lift_ok_bind]
  dsimp only at h ⊢
  by_cases hlength : contentLength = []
  · exact ⟨_, if_pos hlength⟩
  rw [if_neg hlength]
  by_cases hsize : strtoul contentLength = 0 ∨ 10 * 1024 * 1024 < strtoul contentLength
  · exact ⟨_, if_pos hsize⟩
  rw [if_neg (not_or.mpr ⟨hlength, hsize⟩)] at h
  rw [if_neg hsize]
  cases hbody : Text.find (lit "\r\n\r\n") req.text with
  | none => exact ⟨_, rfl⟩
  | some blankLine =>
      rw [hbody] at h
      dsimp only at h ⊢
      by_cases hmalloc : plat.malloc (strtoul contentLength) = true
      · rw [if_pos hmalloc] at h
        cases h
      · exact ⟨_, if_neg hmalloc⟩

/-- From a request with an accepted body, the declared number of bytes is read behind the first
blank line. -/
theorem deploy_site_of_accepted {plat : Platform} {req : HttpRequest} {bodyStart length : Nat}
    (h : acceptedBody plat req = some (bodyStart, length)) :
    deploySite plat req = deployBody plat req (readMemory plat req.raw bodyStart length) ∧
      length ≠ 0 ∧
      ∃ blankLine, Text.find (lit "\r\n\r\n") req.text = some blankLine ∧
        bodyStart = blankLine + 4 := by
  obtain ⟨contentLength, hheader⟩ : ∃ value,
      header req.text (lit "Content-Length") = .ok value := extract_header_value_returns ..
  unfold acceptedBody at h
  rw [hheader] at h
  obtain ⟨haccepted, h⟩ := Option.ite_none_left_eq_some.mp h
  obtain ⟨hlength, hsize⟩ := not_or.mp haccepted
  cases hbody : Text.find (lit "\r\n\r\n") req.text with
  | none =>
      rw [hbody] at h
      cases h
  | some blankLine =>
      rw [hbody] at h
      obtain ⟨hmalloc, h⟩ := Option.ite_none_right_eq_some.mp h
      obtain ⟨rfl, rfl⟩ := Prod.mk.inj (Option.some.inj h)
      refine ⟨?_, (not_or.mp hsize).1, blankLine, rfl, rfl⟩
      unfold deploySite
      rw [hheader, lift_ok_bind, if_neg hlength]
      dsimp only
      rw [if_neg hsize, hbody]
      dsimp only
      rw [if_pos hmalloc]
      unfold deployBody
      cases hreader : plat.zipReader
          (readMemory plat req.raw (blankLine + 4) (strtoul contentLength)) with
      | none => rfl
      | some entries => rfl

/-- The archive is what the ZIP reader makes of the body. -/
theorem archive_eq (plat : Platform) (req : HttpRequest) :
    archive plat req = (acceptedBody plat req).bind fun body =>
      plat.zipReader (readMemory plat req.raw body.1 body.2) := by
  unfold archive acceptedBody
  cases header req.text (lit "Content-Length") with
  | error exn => rfl
  | ok contentLength =>
      dsimp only
      split
      · rfl
      · cases Text.find (lit "\r\n\r\n") req.text with
        | none => rfl
        | some blankLine =>
            dsimp only
            split
            · rfl
            · rfl

/-- What `deploy_site` does with the entries of an archive. -/
theorem deploy_site_of_archive {plat : Platform} {req : HttpRequest} {entries : List ZipEntry}
    (h : archive plat req = some entries) :
    deploySite plat req = (do
      emitAll (extraction plat entries).events
      sendSuccess plat req (lit "Deployed " ++ toDecimal (extraction plat entries).count ++
        lit " files to /deploy/")) := by
  rw [archive_eq] at h
  obtain ⟨⟨bodyStart, length⟩, hbody, hreader⟩ := Option.bind_eq_some_iff.mp h
  rw [(deploy_site_of_accepted hbody).1, deployBody, hreader]

/-- A request that deploys an archive. -/
def deployRequest : HttpRequest :=
  ⟨lit "POST /admin/deploy_site HTTP/1.1\r\nContent-Length: 4\r\n\r\nPK..", lit "POST",
    lit "/admin/deploy_site", []⟩

/-- It is what `parse` makes of its text. -/
example : HttpRequest.parse deployRequest.raw = .ok (true, deployRequest) := rfl

/-! ## The paths of its calls -/

/-- The parent of a name that is joined to a directory is that of the name, joined to it, or the
directory itself. -/
theorem parent_path_join (dir name : Bytes) :
    parentPath (dir ++ 47 :: name) =
      some (match parentPath name with | some inner => dir ++ 47 :: inner | none => dir) := by
  have hslash : (47 : UInt8) ∈ dir ++ 47 :: name := by simp
  unfold parentPath
  rw [if_pos hslash, List.reverse_append, List.reverse_cons, List.append_assoc,
    List.dropWhile_append]
  by_cases hname : (47 : UInt8) ∈ name
  · rw [if_pos hname]
    cases hdrop : name.reverse.dropWhile (· ≠ 47) with
    | nil =>
        have hall := List.dropWhile_eq_nil_iff.mp hdrop 47 (List.mem_reverse.mpr hname)
        exact absurd hall (by decide)
    | cons c rest => simp
  · rw [if_neg hname]
    have hdrop : name.reverse.dropWhile (· ≠ 47) = [] := by
      refine List.dropWhile_eq_nil_iff.mpr fun c hc => decide_eq_true ?_
      rintro rfl
      exact hname (List.mem_reverse.mp hc)
    rw [hdrop]
    simp

/-- The path that a call creates something at, or opens for writing. -/
def Event.createdPath : Event → Option Bytes
  | .makeDir path => some path
  | .writeFile path _ => some path
  | _ => none

/-- The paths that `write_file` uses: that of the parent directory, and its own. -/
def writePaths (path : Bytes) : List Bytes := (parentPath path).toList ++ [path]

/-- The paths that the extraction of an entry uses. -/
def entryPaths (plat : Platform) (entry : ZipEntry) : List Bytes :=
  ((writeCall (deployDirectory plat) entry).map fun call => writePaths call.1).getD []

/-- The paths that `deploy_site` passes to `mkdir` or opens for writing. -/
def usedPaths (plat : Platform) (req : HttpRequest) : List Bytes :=
  deployDirectory plat :: ((archive plat req).getD []).flatMap (entryPaths plat)

/-- The event is a call with one of these paths, or creates nothing. -/
def Event.Uses (paths : List Bytes) (event : Event) : Prop :=
  ∀ path ∈ event.createdPath, path ∈ paths

/-- All calls are made with some of these paths. -/
def Extraction.Uses (paths : List Bytes) (e : Extraction) : Prop :=
  ∀ event ∈ e.events, event.Uses paths

section Uses

variable {plat : Platform} {paths : List Bytes} {e : Extraction}

/-- One more call with paths among those allowed keeps the paths of an extraction among them. -/
theorem Extraction.Uses.append {files : FileTree} {count : Nat} {event : Event}
    (he : e.Uses paths) (hevent : event.Uses paths) :
    Extraction.Uses paths ⟨files, count, e.events ++ [event]⟩ := by
  intro other hother
  obtain hother | hother := List.mem_append.mp hother
  · exact he other hother
  · rw [List.mem_singleton.mp hother]
    exact hevent

/-- A `mkdir` call uses its path and no other. -/
theorem Extraction.Uses.mkdir {path : Bytes} (he : e.Uses paths) (hpath : path ∈ paths) :
    (e.mkdir plat path).Uses paths :=
  he.append fun _ h => Option.some.inj h ▸ hpath

/-- `write_file` uses its path and that of the parent directory and no other. -/
theorem Extraction.Uses.write_file {path data : Bytes} (he : e.Uses paths)
    (hpaths : writePaths path ⊆ paths) : (writeFile plat path data e).Uses paths := by
  have hparent : (makeParent plat path e).Uses paths := by
    unfold makeParent
    cases hdir : parentPath path with
    | none => exact he
    | some dir =>
        exact he.mkdir (hpaths (by simp [writePaths, hdir]))
  have hpath : path ∈ paths := hpaths (by simp [writePaths])
  unfold writeFile
  dsimp only
  split
  · exact hparent
  · split
    · exact hparent.append fun _ h => Option.some.inj h ▸ hpath
    · exact hparent

/-- The extraction of entries uses the paths of the entries and no other. -/
theorem Extraction.Uses.deploy_entries {entries : List ZipEntry} (he : e.Uses paths)
    (hpaths : entries.flatMap (entryPaths plat) ⊆ paths) :
    (entries.foldl (deployEntry plat (deployDirectory plat)) e).Uses paths := by
  induction entries generalizing e with
  | nil => exact he
  | cons entry entries ih =>
      rw [List.flatMap_cons, List.append_subset] at hpaths
      refine ih ?_ hpaths.2
      rw [deploy_entry_eq]
      cases hcall : writeCall (deployDirectory plat) entry with
      | none => exact he
      | some call =>
          refine he.write_file fun path hpath => hpaths.1 ?_
          simpa [entryPaths, hcall] using hpath

/-- The first call is made with the deployment directory. -/
theorem start_extraction_uses (h : deployDirectory plat ∈ paths) :
    (startExtraction plat).Uses paths := by
  have hnone : Extraction.Uses paths ⟨plat.files, 0, []⟩ := fun _ hevent => nomatch hevent
  unfold startExtraction ensureDeployDirectory
  split
  · exact hnone.mkdir h
  · exact hnone

end Uses

/-- An answer creates nothing. -/
theorem send_json_uses {plat : Platform} {κ : Type} {keep : Server → κ} (paths : List Bytes)
    (body : Bytes) (headOnly : Bool) :
    Behaves (Event.Uses paths) keep (sendJson plat body headOnly) :=
  send_json_emits (fun _ _ h => nomatch h) body headOnly

/-- All that `deploy_site` creates, it creates at these paths. -/
theorem deploy_site_uses {κ : Type} {keep : Server → κ} (plat : Platform) (req : HttpRequest) :
    Behaves (Event.Uses (usedPaths plat req)) keep (deploySite plat req) := by
  have hdir : deployDirectory plat ∈ usedPaths plat req := List.mem_cons_self
  have hstart := start_extraction_uses hdir
  cases harchive : archive plat req with
  | some entries =>
      rw [deploy_site_of_archive harchive]
      refine .bind (.emitAll (hstart.deploy_entries ?_)) fun _ => send_json_uses ..
      unfold usedPaths
      rw [harchive]
      exact List.subset_cons_self _ _
  | none =>
      cases hbody : acceptedBody plat req with
      | none =>
          obtain ⟨message, hanswer⟩ := deploy_site_of_rejected hbody
          rw [hanswer]
          exact send_json_uses ..
      | some body =>
          -- the ZIP reader does not take the body
          rw [archive_eq, hbody, Option.bind_some] at harchive
          rw [(deploy_site_of_accepted hbody).1, deployBody, harchive]
          exact .bind (.emitAll hstart) fun _ => send_json_uses ..

end Dvws
