import Dvws.Handlers.Redirects
import Dvws.Url.Reference

/-!
# The origin of a redirect

`serve_static` writes the path of a request into the `Location` line of a redirect. What it checks
first keeps the path to one line, but a client takes a value that starts with two slashes for the
name of another server. `StaysOnServer` says that a redirect leads to this one;
`redirect_stays_iff` says for which requests it does.
-/

namespace Dvws

open Effect Files HttpRequest Text

namespace StaticFiles

/-- The page of a redirect. -/
def movedPage (plat : Platform) : Bytes :=
  errorPage plat 301 (lit "Moved Permanently") (lit "The document has moved.")

/-- The header of a redirect. -/
def movedHeader (plat : Platform) (location cookie : Bytes) : Bytes :=
  statusHeader plat (lit "301 Moved Permanently") htmlType (movedPage plat).length
    (lit "Location: " ++ location ++ crlf ++ cookie)

/-- The lines before its `Location`. -/
def movedFront (plat : Platform) : Bytes :=
  lit "HTTP/1.1 301 Moved Permanently\r\n" ++ lit "Content-Type: " ++ htmlType ++ crlf ++
    lit "Content-Length: " ++ toDecimal (movedPage plat).length

/-- The lines of a header. A CR or an LF alone ends one as well. -/
def headerLines (header : Bytes) : List Bytes :=
  (header.splitOnP fun c => c == 13 || c == 10).filter (· ≠ [])

/-- A redirect to this value stays on the server: it is printable, starts with one slash, is one
line of the header, and leads to no other scheme or authority. -/
structure StaysOnServer (plat : Platform) (location cookie : Bytes) : Prop where
  printable : ∀ c ∈ location, 0x21 ≤ c ∧ c ≤ 0x7e
  slash : lit "/" <+: location
  single : ¬ lit "//" <+: location
  line : headerLines (movedHeader plat location cookie) =
    headerLines (movedFront plat) ++
      (lit "Location: " ++ location) :: headerLines (cookie ++ standardHeaders plat)
  origin : ∀ base, Url.origin base location = base

/-- How many slashes it takes in front of a target to leave two in front of the path. -/
def doubledSlash (method : Bytes) : Bytes := if method = lit "HEAD" then lit "//" else lit "///"

section Header

/-- A line end separates lines. -/
theorem header_lines_append (front behind : Bytes) :
    headerLines (front ++ crlf ++ behind) = headerLines front ++ headerLines behind := by
  have hbreak : front ++ crlf ++ behind = front ++ 13 :: ([] ++ 10 :: behind) := by
    rw [List.append_assoc]
    rfl
  unfold headerLines
  rw [hbreak, List.splitOnP_append_cons _ _ (by decide), List.splitOnP_append_cons _ _ (by decide),
    List.filter_append, List.filter_append]
  rfl

/-- A text without a line end is one line. -/
theorem header_lines_of_line {line : Bytes} (hne : line ≠ [])
    (hline : ∀ c ∈ line, c ≠ 13 ∧ c ≠ 10) : headerLines line = [line] := by
  have hwhole : ∀ c ∈ line, (c == 13 || c == 10) = false := fun c hc => by simp [hline c hc]
  rw [headerLines, List.splitOnP_eq_singleton hwhole, List.filter_singleton]
  simp [hne]

/-- A printable value is one line of the header. -/
theorem moved_header_lines (plat : Platform) {location : Bytes}
    (hprint : ∀ c ∈ location, 0x21 ≤ c ∧ c ≤ 0x7e) (cookie : Bytes) :
    headerLines (movedHeader plat location cookie) =
      headerLines (movedFront plat) ++
        (lit "Location: " ++ location) :: headerLines (cookie ++ standardHeaders plat) := by
  have hheader : movedHeader plat location cookie = movedFront plat ++ crlf ++
      ((lit "Location: " ++ location) ++ crlf ++ (cookie ++ standardHeaders plat)) := by
    have hstatus : lit "HTTP/1.1 301 Moved Permanently\r\n" =
        lit "HTTP/1.1 " ++ lit "301 Moved Permanently" ++ crlf := by decide
    unfold movedHeader movedFront statusHeader
    rw [hstatus]
    simp only [List.append_assoc]
  have hname : ∀ c ∈ lit "Location: ", c ≠ 13 ∧ c ≠ 10 :=
    forall_mem_of_all (p := fun c => c ≠ 13 ∧ c ≠ 10) (by decide)
  have hline : ∀ c ∈ lit "Location: " ++ location, c ≠ 13 ∧ c ≠ 10 := by
    intro c hc
    rcases List.mem_append.mp hc with hc | hc
    · exact hname c hc
    · obtain ⟨hlow, -⟩ := hprint c hc
      constructor
      · rintro rfl
        exact absurd hlow (by decide)
      · rintro rfl
        exact absurd hlow (by decide)
  have hne : lit "Location: " ++ location ≠ [] := List.append_ne_nil_of_left_ne_nil (by decide) _
  rw [hheader, header_lines_append, header_lines_append, header_lines_of_line hne hline]
  rfl

end Header

section Sent

variable {plat : Platform} {req : HttpRequest} {cookie : Bytes} {s : Server}

/-- The event is a response with status 301. -/
def SaysMoved : Event → Prop
  | .send .server data => lit "HTTP/1.1 301 " <+: data
  | _ => False

/-- A text that starts with another status line is no redirect. -/
theorem not_moved_of_front {front : Bytes} (hlength : 13 ≤ front.length)
    (hfront : ¬ lit "HTTP/1.1 301 " <+: front) (rest : Bytes) :
    ¬ SaysMoved (.send .server (front ++ rest)) := fun hmoved =>
  hfront (List.prefix_of_prefix_length_le hmoved (List.prefix_append _ _) hlength)

/-- An error page is no response of its own. -/
theorem not_moved_of_page (statusCode : Nat) (reason detail : Bytes) :
    ¬ SaysMoved (.send .server (errorPage plat statusCode reason detail)) := by
  unfold errorPage
  dsimp only
  simp only [List.append_assoc]
  exact not_moved_of_front (by decide +kernel) (by decide +kernel) _

/-- Logging a request sends no redirect. -/
theorem log_is_not_moved (request response : Bytes) :
    Behaves (fun e => ¬ SaysMoved e) id (logRequestResponse plat request response) := by
  refine (log_request_response_logs request response).weaken (fun e he => ?_) id
  cases e with
  | send => cases he
  | _ => exact id

/-- No answer of `serve_file` is a redirect. -/
theorem serve_file_not_moved (args : FileRequest) :
    Behaves (fun e => ¬ SaysMoved e) id (serveFile plat args) := by
  have herror : ∀ statusCode statusText, statusCode = 403 ∨ statusCode = 404 → Behaves
      (fun e => ¬ SaysMoved e) id
      (sendErrorResponse plat statusCode statusText args.filePath (!args.headOnly)) := by
    intro statusCode statusText hstatus
    refine send_error_response_emits (fun rest => ?_) (not_moved_of_page _ _ _) _
    rcases hstatus with rfl | rfl
    · exact not_moved_of_front (by decide) (by decide) _
    · exact not_moved_of_front (by decide) (by decide) _
  unfold serveFile
  split
  · refine .ite (.bind (herror 403 _ (Or.inl rfl)) fun _ => log_is_not_moved ..) ?_
    refine .bind (log_is_not_moved ..) fun _ => .bind (send_behaves ?_) fun _ =>
      .ite (send_ignored_behaves id) (.pure ())
    unfold listingHeader
    simp only [List.append_assoc]
    exact not_moved_of_front (by decide) (by decide) _
  · unfold sendFile
    split
    · exact .bind (herror 404 _ (Or.inr rfl)) fun _ => log_is_not_moved ..
    · refine .bind (.lift (extract_header_value_returns ..)) fun ims => .ite ?_ ?_
      · refine .bind (log_is_not_moved ..) fun _ => send_ignored_behaves ?_
        simp only [List.append_assoc]
        exact not_moved_of_front (by decide) (by decide) _
      · refine .bind (log_is_not_moved ..) fun _ => .bind (send_behaves ?_) fun _ =>
          .ite (send_pieces_behaves (fun _ => id) _) (.pure ())
        unfold fileHeader
        simp only [List.append_assoc]
        exact not_moved_of_front (by decide) (by decide) _

/-- A response with status 301 is the header of the redirect. -/
theorem moved_of_says_moved {e : Event} (he : e ∈ (serveStatic plat req cookie s).events)
    (hmoved : SaysMoved e) :
    answer plat req = .moved ∧
      e = .send .server (movedHeader plat (redirectTarget req) cookie) := by
  have hstatus : ∀ statusCode reason detail, statusCode = lit "403 Forbidden" ∨
      statusCode = lit "404 Not Found" → ∀ code, Behaves (fun e => ¬ SaysMoved e) id
        (sendStatus plat statusCode htmlType .server (errorPage plat code reason detail) cookie
          (req.method == lit "HEAD")) := by
    intro statusCode reason detail hcode code
    refine send_status_emits ?_ (not_moved_of_page _ _ _) _
    unfold statusHeader
    simp only [List.append_assoc]
    rw [← List.append_assoc (lit "HTTP/1.1 ")]
    rcases hcode with rfl | rfl
    · exact not_moved_of_front (by decide) (by decide) _
    · exact not_moved_of_front (by decide) (by decide) _
  cases hanswer : answer plat req with
  | forbidden =>
      rw [serve_static_eq, hanswer] at he
      exact absurd hmoved ((hstatus _ _ _ (Or.inl rfl) 403).events s e he)
  | unresolved =>
      rw [serve_static_eq, hanswer] at he
      exact absurd hmoved ((hstatus _ _ _ (Or.inr rfl) 404).events s e he)
  | moved =>
      refine ⟨rfl, ?_⟩
      rw [serve_static_of_moved hanswer] at he
      have hsent : Behaves (fun e => SaysMoved e →
          e = .send .server (movedHeader plat (redirectTarget req) cookie)) id
          (sendStatus plat (lit "301 Moved Permanently") htmlType .server (movedPage plat)
            (lit "Location: " ++ redirectTarget req ++ crlf ++ cookie)
            (req.method == lit "HEAD")) :=
        send_status_emits (fun _ => rfl) (fun h => absurd h (not_moved_of_page _ _ _)) _
      exact hsent.events s e he hmoved
  | file path =>
      rw [serve_static_eq, hanswer] at he
      exact absurd hmoved ((serve_file_not_moved _).events s e he)

end Sent

section Target

/-- Two slashes in front of a target are two slashes in front of its path. -/
theorem double_slash_path (target : Bytes) :
    lit "//" <+: pathOf target ↔ lit "//" <+: target := by
  have hlit : lit "//" = [47, 47] := rfl
  constructor
  · intro hpath
    refine hpath.trans ?_
    unfold pathOf
    cases find (lit "?") target with
    | none => exact List.prefix_refl _
    | some qmark => exact List.take_prefix _ _
  · rintro ⟨rest, rfl⟩
    rw [hlit, List.cons_append, List.singleton_append, path_of_cons_slash, path_of_cons_slash]
    exact ⟨pathOf rest, rfl⟩

/-- The path starts with two slashes exactly when the target that was copied does. -/
theorem double_slash_clean_path (out : HttpRequest) (target : Bytes) :
    lit "//" <+: (setTarget out target).cleanPath ↔ lit "//" <+: target := by
  rw [set_target_clean_path, ← double_slash_path target]
  split
  · rename_i hadded
    obtain ⟨hne, hslash⟩ := hadded
    obtain ⟨c, rest, hpath⟩ := List.exists_cons_of_ne_nil hne
    rw [hpath] at hslash ⊢
    have hc : c ≠ 47 := fun h => hslash (by rw [h]; rfl)
    refine iff_of_false (fun hdouble => ?_) fun hdouble => ?_
    · obtain ⟨more, hmore⟩ := hdouble
      exact hc (List.cons.inj (List.cons.inj hmore).2).1.symm
    · obtain ⟨more, hmore⟩ := hdouble
      exact hc (List.cons.inj hmore).1.symm
  · rfl

/-- A cleaned path starts with two slashes exactly when the target, with the slash of its marker,
starts with those of `doubledSlash`. -/
theorem double_slash_of_parse {raw method target : Bytes} {req : HttpRequest}
    (hparse : parse raw = .ok (true, req)) (htarget : TargetText (cstr raw) method target) :
    lit "//" <+: req.cleanPath ↔ doubledSlash method <+: 47 :: target := by
  obtain ⟨-, rfl⟩ := target_of_parse hparse htarget
  rw [double_slash_clean_path]
  unfold targetSlice doubledSlash
  split
  · rfl
  · have hthree : lit "///" = 47 :: lit "//" := rfl
    rw [hthree, List.prefix_cons_inj]
    rfl

end Target

/-- A response with status 301 carries the path of the request with a slash behind it, and stays on
the server exactly when the target of the request does not start with three slashes, or with two in
a HEAD request. -/
theorem redirect_stays_iff {plat : Platform} {raw cookie header : Bytes} {req : HttpRequest}
    {s : Server} (hparse : parse raw = .ok (true, req))
    (hsent : .send .server header ∈ (serveStatic plat req cookie s).events)
    (hstatus : lit "HTTP/1.1 301 " <+: header) :
    header = movedHeader plat (redirectTarget req) cookie ∧
      (StaysOnServer plat (redirectTarget req) cookie ↔ ∀ method target,
        TargetText (cstr raw) method target → ¬ doubledSlash method <+: 47 :: target) := by
  obtain ⟨hmoved, hevent⟩ := moved_of_says_moved hsent hstatus
  have hheader := (Event.send.inj hevent).2
  refine ⟨hheader, ?_⟩
  obtain ⟨hlacks, hwritten⟩ := facts_of_moved hmoved
  obtain ⟨hhead, -⟩ := clean_path_of_parse hparse
  obtain ⟨hslash, -⟩ := facts_of_lacks_slash hlacks
  obtain ⟨rest, hreq, hne⟩ := clean_path_of_moved hhead (resolved_file_path_of_no_slash hslash).1
  have hlocation : redirectTarget req = 47 :: (rest ++ lit "/") := by
    rw [redirectTarget, hreq]
    rfl
  -- the slash behind the path makes no difference in front of it
  have hdouble : lit "//" <+: redirectTarget req ↔ lit "//" <+: req.cleanPath := by
    obtain ⟨c, more, rfl⟩ := List.exists_cons_of_ne_nil hne
    rw [hlocation, hreq, show lit "//" = [47, 47] from rfl]
    simp only [List.cons_append, List.prefix_cons_inj, List.cons_prefix_cons, List.nil_prefix]
  obtain ⟨method, target, htarget⟩ := target_text_of_marked (marked_of_parse hparse)
  constructor
  · intro hstays method target htarget hslashes
    refine hstays.single ?_
    rw [hdouble, double_slash_of_parse hparse htarget]
    exact hslashes
  · intro hcondition
    have hsingle : ¬ lit "//" <+: redirectTarget req := by
      rw [hdouble, double_slash_of_parse hparse htarget]
      exact hcondition method target htarget
    have hprint : ∀ c ∈ redirectTarget req, 0x21 ≤ c ∧ c ≤ 0x7e := by
      intro c hc
      rcases List.mem_append.mp hc with hpath | hlast
      · have hbyte := List.all_eq_true.mp hwritten c hpath
        simpa using hbyte
      · obtain rfl := List.mem_singleton.mp hlast
        exact ⟨by decide, by decide⟩
    refine ⟨hprint, ?_, hsingle, moved_header_lines plat hprint cookie, ?_⟩
    · rw [hlocation]
      exact ⟨_, rfl⟩
    · rw [hlocation] at hsingle ⊢
      exact (Url.origin_eq_iff _).mpr hsingle

/-- The redirect of a request for a directory is followed on the server. -/
theorem redirect_stays_iff_docs :
    StaysOnServer allDirectories (redirectTarget docsRequest) [] := by
  have hparse : parse docsRequest.raw = .ok (true, docsRequest) := rfl
  have hsent : .send .server (movedHeader allDirectories (redirectTarget docsRequest) []) ∈
      (serveStatic allDirectories docsRequest [] .init).events := by
    rw [serve_static_of_moved (by decide +kernel)]
    exact List.mem_cons_self
  have hstatus : lit "HTTP/1.1 301 " <+:
      movedHeader allDirectories (redirectTarget docsRequest) [] := ⟨_, rfl⟩
  refine (redirect_stays_iff hparse hsent hstatus).2.mpr ?_
  intro method target htarget
  obtain ⟨rest, stop, hmarker, hbehind, hstop, rfl⟩ := htarget
  obtain rfl : lit "GET" = method := Option.some.inj hmarker
  obtain rfl : lit "docs HTTP/1.1\r\n\r\n" = rest := Option.some.inj hbehind
  obtain rfl : 4 = stop := Option.some.inj hstop
  decide

/-- A request for the same directory with two more slashes in front. -/
def slashedRequest : HttpRequest :=
  ⟨lit "GET ///docs HTTP/1.1\r\n\r\n", lit "GET", lit "//docs", []⟩

/-- The redirect of a target with three slashes in front leads to a server of that name. -/
theorem not_stays_on_server :
    parse slashedRequest.raw = .ok (true, slashedRequest) ∧
      .send .server (movedHeader allDirectories (lit "//docs/") []) ∈
        (serveStatic allDirectories slashedRequest [] .init).events ∧
      Url.origin ⟨lit "http", some (lit "localhost:8888")⟩ (lit "//docs/") =
        ⟨lit "http", some (lit "docs")⟩ ∧
      ¬ StaysOnServer allDirectories (lit "//docs/") [] := by
  have hsent : .send .server (movedHeader allDirectories (redirectTarget slashedRequest) []) ∈
      (serveStatic allDirectories slashedRequest [] .init).events := by
    rw [serve_static_of_moved (by decide +kernel)]
    exact List.mem_cons_self
  exact ⟨rfl, hsent, by decide +kernel, fun hstays => hstays.single ⟨_, rfl⟩⟩

end StaticFiles

end Dvws
