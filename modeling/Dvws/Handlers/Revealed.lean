import Dvws.Handlers.StaticFiles

/-!
# What a static answer reveals

`Serves plat args path loc` is the condition under which `serve_file` sends contents of the place
`loc` for a path: all of the file there up to what the client takes, or a listing of the directory.
The results say it is exact, first for each of the two kinds of answer and then for `serve_static`,
which redirects some paths and gives up on others (`ServesPath`).
-/

namespace Dvws

open Effect Files

/-- The event hands out contents of a place with `p`. -/
def Reveals (p : Location → Prop) : Event → Prop
  | .send (.file loc) _ => p loc
  | .send (.listing loc) _ => p loc
  | _ => False

variable {p : Location → Prop} {plat : Platform}

/-- Plain events reveal nothing. -/
theorem not_reveals_of_plain {e : Event} (h : PlainEvent e) : ¬ Reveals p e := by
  cases e with
  | send origin data => cases origin <;> first | exact id | exact h.elim
  | _ => exact id

/-- Plain procedures have no event that reveals anything. -/
theorem conceals_of_plain {α κ : Type} {keep : Server → κ} {x : Handler α}
    (hx : Behaves PlainEvent keep x) : Behaves (fun e => ¬ Reveals p e) keep x :=
  hx.weaken (fun _ => not_reveals_of_plain) id

/-- A plain procedure reveals nothing. -/
theorem plain_reveals_nothing {α : Type} {x : Handler α} (hx : Behaves PlainEvent id x)
    (s : Server) : ¬ Emits (Reveals p) x s :=
  (conceals_of_plain hx).not_emits s

/-- A plain procedure before the answer plays no part. -/
theorem reveals_after_plain {x : Handler Unit} {f : Unit → Handler Unit}
    (hx : Behaves PlainEvent id x) (s : Server) :
    Emits (Reveals p) (x >>= f) s ↔ Emits (Reveals p) (f ()) s :=
  (conceals_of_plain hx).emits_bind_unit s f

/-- A send that the client takes is recorded and succeeds. -/
theorem send_run_of_ok {origin : Origin} {data : Bytes} (h : plat.sendOk data = true) (s : Server) :
    send plat origin data s = ⟨.ok true, s, [.send origin data]⟩ := by
  unfold send
  rw [if_pos h]
  rfl

/-- A send that fails is not recorded. -/
theorem send_run_of_not_ok {origin : Origin} {data : Bytes} (h : plat.sendOk data = false)
    (s : Server) : send plat origin data s = ⟨.ok false, s, []⟩ := by
  unfold send
  rw [if_neg (Bool.eq_false_iff.mp h)]
  rfl

/-- A body follows its header when the client takes the header and the request is not `HEAD`. -/
theorem reveals_after_header (header : Bytes) (headOnly : Bool) (body : Handler Unit)
    (s : Server) :
    Emits (Reveals p) (send plat .server header >>= fun sent =>
        if sent && !headOnly then body else pure ()) s ↔
      plat.sendOk header = true ∧ headOnly = false ∧ Emits (Reveals p) body s := by
  have hsend : Behaves (fun e => ¬ Reveals p e) id (send plat .server header) := send_behaves id
  cases hok : plat.sendOk header with
  | true =>
      rw [hsend.emits_bind (by rw [send_run_of_ok hok])]
      cases headOnly with
      | true => simp
      | false => simp
  | false =>
      rw [hsend.emits_bind (by rw [send_run_of_not_ok hok])]
      simp

/-- A body is revealed when the client takes it. -/
theorem reveals_send_ignored (origin : Origin) (data : Bytes) (s : Server) :
    Emits (Reveals p) (sendIgnored plat origin data) s ↔
      plat.sendOk data = true ∧ Reveals p (.send origin data) := by
  unfold sendIgnored
  cases hok : plat.sendOk data with
  | true =>
      unfold Emits
      rw [bind_run_of_ok (send_run_of_ok hok s)]
      simp
  | false =>
      unfold Emits
      rw [bind_run_of_ok (send_run_of_not_ok hok s)]
      simp

/-- Pieces are revealed when there is a first one and the client takes it. -/
theorem reveals_send_pieces (loc : Location) (pieces : List Bytes) (s : Server) :
    Emits (Reveals p) (sendPieces plat (.file loc) pieces) s ↔
      p loc ∧ ∃ piece, pieces.head? = some piece ∧ plat.sendOk piece = true := by
  cases pieces with
  | nil => simp [sendPieces]
  | cons piece pieces =>
      have hall : Behaves (fun e => Reveals p e → p loc) id
          (sendPieces plat (.file loc) (piece :: pieces)) :=
        send_pieces_behaves (fun _ => id) _
      unfold Emits
      cases hok : plat.sendOk piece with
      | true =>
          constructor
          · intro hemits
            obtain ⟨e, he, hreveals⟩ := hemits
            exact ⟨hall.events s e he hreveals, piece, rfl, hok⟩
          · intro htaken
            obtain ⟨hloc, -⟩ := htaken
            refine ⟨.send (.file loc) piece, ?_, hloc⟩
            unfold sendPieces
            rw [bind_run_of_ok (send_run_of_ok hok s)]
            exact List.mem_cons_self
      | false =>
          unfold sendPieces
          rw [bind_run_of_ok (send_run_of_not_ok hok s)]
          simp [hok]

/-- The file of a nonempty read starts with a piece. -/
theorem head_chunks (data : Bytes) :
    (chunks data).head? = if data = [] then none else some (data.take 1024) := by
  cases data with
  | nil => rfl
  | cons c data => rfl

/-! ## Files and listings -/

namespace StaticFiles

/-- `sendFile` sends contents of the node. -/
structure SendsFile (plat : Platform) (args : FileRequest) (path : Bytes) (node : Node) : Prop where
  modified : extractHeaderValue args.request (lit "If-Modified-Since:") ≠
    .ok (httpDate node.mtime)
  headerTaken : plat.sendOk (fileHeader plat args path node) = true
  wanted : args.headOnly = false
  nonempty : node.content ≠ []
  taken : plat.sendOk (node.content.take 1024) = true

/-- `sendListing` sends a listing. -/
structure SendsListing (plat : Platform) (args : FileRequest) (path : Bytes) : Prop where
  readable : listingBody plat args path ≠ []
  headerTaken : plat.sendOk (listingHeader plat args (listingBody plat args path)) = true
  wanted : args.headOnly = false
  taken : plat.sendOk (listingBody plat args path) = true

/-- A directory has an index document, by the path of the directory. -/
def HasIndex (plat : Platform) (path : Bytes) : Prop :=
  ∃ loc content mtime readable,
    stat plat.files plat.cwd (indexCandidate path) = some (loc, .file content mtime readable)

/-- The path leads to a directory. -/
def IsDirectory (plat : Platform) (path : Bytes) : Prop :=
  ∃ loc names mtime size readable,
    stat plat.files plat.cwd path = some (loc, .dir names mtime size readable)

/-- A path is answered with contents of the place: it leads to the file there, or to a directory
with an index document whose path leads to the file, or to the directory there, which has none. The
path of an index document is cut like any other, so it may lead to another file. -/
inductive Serves (plat : Platform) (args : FileRequest) (path : Bytes) (loc : Location) : Prop where
  | file {node} (hopen : openRead plat.files plat.cwd path = some (loc, node))
      (hsends : SendsFile plat args path node)
  | index {node} (hdirectory : IsDirectory plat path) (hindex : HasIndex plat path)
      (hopen : openRead plat.files plat.cwd ((indexCandidate path).take 511) = some (loc, node))
      (hsends : SendsFile plat args ((indexCandidate path).take 511) node)
  | listing (hdirectory : IsDirectory plat path) (hindex : ¬ HasIndex plat path)
      (hplace : loc = normalize plat.cwd path) (hsends : SendsListing plat args path)

/-- An opened file is revealed exactly when it is sent. -/
theorem reveals_send_file (args : FileRequest) (path : Bytes) (s : Server) :
    Emits (Reveals p) (sendFile plat args path) s ↔
      ∃ loc node, openRead plat.files plat.cwd path = some (loc, node) ∧ p loc ∧
        SendsFile plat args path node := by
  unfold sendFile
  cases hopen : openRead plat.files plat.cwd path with
  | none =>
      have hplain : Behaves PlainEvent id (sendErrorResponse plat 404 (lit "Not Found")
          args.filePath (!args.headOnly) >>= fun _ => logRequestResponse plat args.request
            (lit "HTTP/1.1 404 Not Found\r\nContent-Type: text/plain\r\n\r\nFile Not Found")) :=
        .bind (send_error_response_behaves ..) fun _ => log_request_response_behaves ..
      exact iff_of_false (plain_reveals_nothing hplain s) (by simp)
  | some found =>
      obtain ⟨loc, node⟩ := found
      obtain ⟨ims, hims⟩ := extract_header_value_returns args.request (lit "If-Modified-Since:")
      simp only [Option.some.injEq, Prod.mk.injEq, hims, lift_ok_bind]
      by_cases hsame : ims = httpDate node.mtime
      · -- a conditional request is answered with a 304 and no contents
        rw [if_pos hsame, reveals_after_plain (log_request_response_behaves ..)]
        refine iff_of_false ?_ ?_
        · rw [reveals_send_ignored]
          exact fun h => h.2
        · intro hserved
          obtain ⟨_, _, ⟨rfl, rfl⟩, -, hsends⟩ := hserved
          exact hsends.modified (hims.trans (congrArg _ hsame))
      · rw [if_neg hsame, reveals_after_plain (log_request_response_behaves ..),
          reveals_after_header, reveals_send_pieces, head_chunks]
        constructor
        · intro hsent
          obtain ⟨hheader, hwanted, hloc, piece, hpiece, htaken⟩ := hsent
          obtain ⟨hnonempty, hpiece⟩ := Option.ite_none_left_eq_some.mp hpiece
          obtain rfl := Option.some.inj hpiece
          refine ⟨loc, node, ⟨rfl, rfl⟩, hloc, ?_, hheader, hwanted, hnonempty, htaken⟩
          rw [hims, ne_eq, Except.ok.injEq]
          exact hsame
        · intro hserved
          obtain ⟨_, _, ⟨rfl, rfl⟩, hloc, hsends⟩ := hserved
          exact ⟨hsends.headerTaken, hsends.wanted, hloc, _, if_neg hsends.nonempty, hsends.taken⟩

/-- A directory is revealed exactly when its listing is sent. -/
theorem reveals_send_listing (args : FileRequest) (path : Bytes) (loc : Location) (s : Server) :
    Emits (Reveals p) (sendListing plat args path loc) s ↔
      p loc ∧ SendsListing plat args path := by
  unfold sendListing
  by_cases hbody : listingBody plat args path = []
  · rw [if_pos hbody, reveals_after_plain (send_error_response_behaves ..)]
    refine iff_of_false ?_ fun h => h.2.readable hbody
    exact plain_reveals_nothing (log_request_response_behaves ..) s
  · rw [if_neg hbody, reveals_after_plain (log_request_response_behaves ..),
      reveals_after_header, reveals_send_ignored]
    constructor
    · intro hsent
      obtain ⟨hheader, hwanted, htaken, hloc⟩ := hsent
      exact ⟨hloc, hbody, hheader, hwanted, htaken⟩
    · intro hserved
      obtain ⟨hloc, hsends⟩ := hserved
      exact ⟨hsends.headerTaken, hsends.wanted, hsends.taken, hloc⟩

/-- For a directory with an index document, `serve_file` chooses that document. -/
theorem target_of_index {filePath : Bytes} (hdirectory : IsDirectory plat (filePath.take 511))
    (hindex : HasIndex plat (filePath.take 511)) :
    target plat filePath = .document ((indexCandidate (filePath.take 511)).take 511) := by
  obtain ⟨loc, names, mtime, size, readable, hstat⟩ := hdirectory
  obtain ⟨place, content, mtime, readable, hfile⟩ := hindex
  simp only [target, hstat, hfile]

/-- For a directory without an index document, `serve_file` chooses its listing. -/
theorem target_of_listing {filePath : Bytes} (hdirectory : IsDirectory plat (filePath.take 511))
    (hindex : ¬ HasIndex plat (filePath.take 511)) :
    target plat filePath =
      .listing (filePath.take 511) (normalize plat.cwd (filePath.take 511)) := by
  obtain ⟨loc, names, mtime, size, readable, hstat⟩ := hdirectory
  rw [← stat_location hstat]
  unfold target
  dsimp only
  rw [hstat]
  dsimp only
  split
  · next place content mtime readable hfile => exact absurd ⟨_, _, _, _, hfile⟩ hindex
  · rfl

/-- For what is no directory, `serve_file` chooses the document of that path. -/
theorem target_of_file {filePath : Bytes} (hfile : ¬ IsDirectory plat (filePath.take 511)) :
    target plat filePath = .document (filePath.take 511) := by
  unfold target
  dsimp only
  split
  · next loc names mtime size readable hstat => exact absurd ⟨_, _, _, _, _, hstat⟩ hfile
  · rfl

/-- A directory is not sent as a file. -/
theorem SendsFile.not_directory {args : FileRequest} {path cut : Bytes} {loc : Location}
    {node : Node} (h : SendsFile plat args path node)
    (hopen : openRead plat.files plat.cwd cut = some (loc, node)) : ¬ IsDirectory plat cut := by
  rintro ⟨place, names, mtime, size, readable, hstat⟩
  rw [(stat_of_open_read hopen).1] at hstat
  cases hstat
  exact h.nonempty rfl

/-- `serve_file` reveals the places that the path, cut to the 511 bytes that `resolved_path` holds,
is answered with. -/
theorem reveals_serve_file (args : FileRequest) (s : Server) :
    Emits (Reveals p) (serveFile plat args) s ↔
      ∃ loc, p loc ∧ Serves plat args (args.filePath.take 511) loc := by
  unfold serveFile
  by_cases hdirectory : IsDirectory plat (args.filePath.take 511)
  · by_cases hindex : HasIndex plat (args.filePath.take 511)
    · rw [target_of_index hdirectory hindex]
      refine (reveals_send_file ..).trans ?_
      constructor
      · intro hserved
        obtain ⟨loc, node, hopen, hloc, hsends⟩ := hserved
        exact ⟨loc, hloc, .index hdirectory hindex hopen hsends⟩
      · intro hserved
        obtain ⟨loc, hloc, hserves⟩ := hserved
        cases hserves with
        | file hopen hsends => exact absurd hdirectory (hsends.not_directory hopen)
        | index _ _ hopen hsends => exact ⟨loc, _, hopen, hloc, hsends⟩
        | listing _ hnone => exact absurd hindex hnone
    · rw [target_of_listing hdirectory hindex]
      refine (reveals_send_listing ..).trans ?_
      constructor
      · intro hserved
        obtain ⟨hloc, hsends⟩ := hserved
        exact ⟨_, hloc, .listing hdirectory hindex rfl hsends⟩
      · intro hserved
        obtain ⟨loc, hloc, hserves⟩ := hserved
        cases hserves with
        | file hopen hsends => exact absurd hdirectory (hsends.not_directory hopen)
        | index _ hhas => exact absurd hhas hindex
        | listing _ _ hplace hsends => exact ⟨hplace ▸ hloc, hsends⟩
  · rw [target_of_file hdirectory]
    refine (reveals_send_file ..).trans ?_
    constructor
    · intro hserved
      obtain ⟨loc, node, hopen, hloc, hsends⟩ := hserved
      exact ⟨loc, hloc, .file hopen hsends⟩
    · intro hserved
      obtain ⟨loc, hloc, hserves⟩ := hserved
      cases hserves with
      | file hopen hsends => exact ⟨loc, _, hopen, hloc, hsends⟩
      | index his => exact absurd his hdirectory
      | listing his => exact absurd his hdirectory

/-- `serve_file` chooses a listing of the place that the path points to, the path itself, or the
index document there. -/
theorem target_cases (plat : Platform) (filePath : Bytes) :
    target plat filePath =
        .listing (filePath.take 511) (normalize plat.cwd (filePath.take 511)) ∨
      target plat filePath = .document (filePath.take 511) ∨
      target plat filePath = .document ((indexCandidate (filePath.take 511)).take 511) := by
  by_cases hdirectory : IsDirectory plat (filePath.take 511)
  · by_cases hindex : HasIndex plat (filePath.take 511)
    · exact .inr (.inr (target_of_index hdirectory hindex))
    · exact .inl (target_of_listing hdirectory hindex)
  · exact .inr (.inl (target_of_file hdirectory))

/-- The path that `serve_static` resolves the request to. -/
def requestedFile (plat : Platform) (req : HttpRequest) : Bytes :=
  resolvedFilePath plat (joinedPath plat req.cleanPath)

/-- The arguments that `serve_static` hands on. -/
def fileRequest (plat : Platform) (req : HttpRequest) (cookie : Bytes) : FileRequest :=
  ⟨requestedFile plat req, req.cleanPath, req.text, cookie, req.method == lit "HEAD"⟩

/-- The place that a request names below the document root, or beside it. -/
def namedPlace (plat : Platform) (req : HttpRequest) : Location :=
  normalize plat.cwd (joinedPath plat req.cleanPath)

/-- The path of that place, with a slash where the request has one that is kept. -/
def namedPath (plat : Platform) (req : HttpRequest) : Bytes :=
  render (namedPlace plat req) ++
    if keepsSlash plat (joinedPath plat req.cleanPath) ∧
      (render (namedPlace plat req)).getLast? ≠ some 47 then [47] else []

/-- `serve_static` comes to serve the file: the path can be resolved; and it ends in a slash, or
resolved it does, or it leads to no directory, or a redirect cannot carry it. -/
structure ServesPath (plat : Platform) (req : HttpRequest) : Prop where
  resolved : plat.canonicalFails (joinedPath plat req.cleanPath) = false
  direct : keepsSlash plat (joinedPath plat req.cleanPath) = true ∨
    (render (namedPlace plat req)).getLast? = some 47 ∨
    ¬ IsDirectory plat (render (namedPlace plat req)) ∨ ∃ c ∈ req.cleanPath, c < 33 ∨ 126 < c

/-- A request is resolved to the path of the place that it names. -/
theorem requested_file_eq (plat : Platform) (req : HttpRequest) :
    requestedFile plat req = namedPath plat req := resolved_file_path_eq ..

/-- The path of a directory lacks its slash. -/
theorem lacks_slash_iff {path : Bytes} :
    lacksSlash plat path = true ↔ path.getLast? ≠ some 47 ∧ IsDirectory plat path := by
  unfold lacksSlash IsDirectory
  cases hstat : stat plat.files plat.cwd path with
  | none => simp
  | some found =>
      obtain ⟨loc, node⟩ := found
      cases node <;> simp [Node.isDir]

/-- A path that a redirect cannot carry has a byte that is no visible ASCII character. -/
theorem not_redirectable_iff {path : Bytes} :
    redirectable path = false ↔ ∃ c ∈ path, c < 33 ∨ 126 < c := by
  unfold redirectable
  rw [List.all_eq_false]
  refine exists_congr fun c => and_congr_right fun _ => ?_
  rw [Bool.and_eq_true, decide_eq_true_iff, decide_eq_true_iff, not_and_or, UInt8.not_le,
    UInt8.not_le]

/-- A request is redirected exactly when its path is resolved and not served. -/
theorem redirected_iff {req : HttpRequest} :
    (lacksSlash plat (requestedFile plat req) && redirectable req.cleanPath) = true ↔
      ¬ (keepsSlash plat (joinedPath plat req.cleanPath) = true ∨
        (render (namedPlace plat req)).getLast? = some 47 ∨
        ¬ IsDirectory plat (render (namedPlace plat req)) ∨
        ∃ c ∈ req.cleanPath, c < 33 ∨ 126 < c) := by
  have hslash : keepsSlash plat (joinedPath plat req.cleanPath) = true ∧
      (render (namedPlace plat req)).getLast? ≠ some 47 →
      ¬ lacksSlash plat (requestedFile plat req) = true := by
    intro hkept hlacks
    rw [requested_file_eq, namedPath, if_pos hkept, lacks_slash_iff, List.getLast?_concat] at hlacks
    exact hlacks.1 rfl
  rw [← not_redirectable_iff, Bool.and_eq_true, ← Bool.not_eq_true]
  by_cases hkept : keepsSlash plat (joinedPath plat req.cleanPath) = true ∧
      (render (namedPlace plat req)).getLast? ≠ some 47
  · exact iff_of_false (fun h => hslash hkept h.1) fun h => h (.inl hkept.1)
  · rw [requested_file_eq, namedPath, if_neg hkept, List.append_nil, lacks_slash_iff]
    tauto

/-- `serve_static` serves a path that it does not give up on and does not redirect. -/
theorem serves_path_iff {req : HttpRequest} :
    ServesPath plat req ↔ plat.canonicalFails (joinedPath plat req.cleanPath) = false ∧
      (lacksSlash plat (requestedFile plat req) && redirectable req.cleanPath) = false := by
  rw [← Bool.not_eq_true (lacksSlash plat (requestedFile plat req) && redirectable req.cleanPath),
    redirected_iff, not_not]
  exact ⟨fun h => ⟨h.resolved, h.direct⟩, fun h => ⟨h.1, h.2⟩⟩

/-- `serve_static` reveals the places that it comes to serve. -/
theorem reveals_serve_static (req : HttpRequest) (cookie : Bytes) (s : Server) :
    Emits (Reveals p) (serveStatic plat req cookie) s ↔
      ServesPath plat req ∧ ∃ loc, p loc ∧
        Serves plat (fileRequest plat req cookie) ((namedPath plat req).take 511) loc := by
  have hinside : (cstr plat.serverDir).isPrefixOf (joinedPath plat req.cleanPath) = true := by
    simp [joinedPath]
  have hplain (code type page extra : Bytes) (headOnly : Bool) :
      ¬ Emits (Reveals p) (sendStatus plat code type .server page extra headOnly) s :=
    plain_reveals_nothing (send_status_behaves server_is_plain ..) s
  rw [serves_path_iff, ← requested_file_eq]
  unfold serveStatic
  rw [if_neg (by rw [hinside]; decide)]
  by_cases hfails : plat.canonicalFails (joinedPath plat req.cleanPath) = true
  · rw [if_pos hfails]
    refine iff_of_false (hplain _ _ _ _ _) fun h => ?_
    exact absurd (h.1.1.symm.trans hfails) (by decide)
  · rw [if_neg hfails]
    by_cases hredirect : (lacksSlash plat (requestedFile plat req) &&
        redirectable req.cleanPath) = true
    · refine iff_of_false ?_ fun h => absurd (h.1.2.symm.trans hredirect) (by decide)
      show ¬ Emits (Reveals p) (if (lacksSlash plat (requestedFile plat req) &&
        redirectable req.cleanPath) = true then _ else _) s
      rw [if_pos hredirect]
      exact hplain _ _ _ _ _
    · show Emits (Reveals p) (if (lacksSlash plat (requestedFile plat req) &&
        redirectable req.cleanPath) = true then _ else
          serveFile plat (fileRequest plat req cookie)) s ↔ _
      rw [if_neg hredirect, reveals_serve_file]
      exact (and_iff_right ⟨Bool.eq_false_iff.mpr hfails, Bool.eq_false_iff.mpr hredirect⟩).symm

end StaticFiles

end Dvws
