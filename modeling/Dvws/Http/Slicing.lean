import Dvws.Effect.Traced
import Dvws.Http.RequestLine
import Dvws.Sessions

/-!
# Slicing at machine positions

The helpers that cut a request compute positions as `size_t` numbers: a search that fails gives
`npos`, the largest of them, and additions and subtractions wrap around. Here they run on such
numbers and record every position that they hand to `substr`, `compare` or `operator[]`, and every
difference of positions that they take as a length (`Use`). They compute what the definitions on
`Option` positions do (`Agrees`), every position lies within its string, and no difference wraps
around (`slicing_is_sound`).
-/

namespace Dvws

open Effect

/-- What is done with a position. -/
inductive Use where
  /-- it is an argument of `substr`, `compare` or `operator[]` of a string of this length -/
  | position (length pos : Nat)
  /-- it is subtracted from another to get a length -/
  | difference (upper lower : Nat)
  deriving DecidableEq, Repr

/-- The position lies within the string; the difference does not wrap around. -/
def Use.Sound : Use → Prop
  | .position length pos => pos ≤ length
  | .difference upper lower => lower ≤ upper

namespace Slicing

/-- `std::string::npos`. -/
def npos : Nat := 2 ^ 64 - 1

/-- A computation that records its positions. -/
abbrev Sliced (α : Type) := Traced Use Exn α

/-- `s.find(pat, pos)`. -/
def find (s pat : Bytes) (pos : Nat) : Nat := (findFrom s pat pos).getD npos

/-- `s.substr(pos, count)`. -/
def slice (s : Bytes) (pos count : Nat) : Sliced Bytes := do
  emit (.position s.length pos)
  lift (substr s pos (some count))

/-- `s.compare(pos, count, other) == 0`. -/
def compare (s : Bytes) (pos count : Nat) (other : Bytes) : Sliced Bool := do
  emit (.position s.length pos)
  lift (compareAt s pos count other)

/-- `upper - lower`, as a length. -/
def difference (upper lower : Nat) : Sliced Nat := do
  emit (.difference upper lower)
  pure (sizeSub upper lower)

/-- `while (isspace(s[pos])) pos++;` in a string of this length, of which `rest` is what stands from
`pos` on. At the end `operator[]` gives a NUL. -/
def skip (length : Nat) : Bytes → Nat → Sliced Nat
  | [], pos => do
      emit (.position length pos)
      pure pos
  | c :: rest, pos => do
      emit (.position length pos)
      if isSpace c then skip length rest (sizeAdd pos 1) else pure pos

/-- `extract_header_value`. -/
def extractHeaderValue (request headerName : Bytes) : Sliced Bytes := do
  let headerPos := find request headerName 0
  if headerPos = npos then pure []
  else do
    let start := sizeAdd headerPos headerName.length
    let valuePos ← skip request.length (request.drop start) start
    let crlf := find request (lit "\r\n") valuePos
    let endOfLine := if crlf = npos then find request (lit "\n") valuePos else crlf
    let count ← difference endOfLine valuePos
    slice request valuePos count

/-- The loop of `extract_query_parameters` over the pieces. -/
def insertPairs : List Bytes → Params → Sliced Params
  | [], params => pure params
  | pair :: pairs, params => do
      let eqPos := find pair (lit "=") 0
      if eqPos = npos then insertPairs pairs params
      else do
        let key ← slice pair 0 eqPos
        let value ← slice pair (sizeAdd eqPos 1) npos
        insertPairs pairs (params.insert key value)

/-- `extract_query_parameters`. The second search starts at zero when the first has failed. -/
def extractQueryParameters (request : Bytes) : Sliced Params := do
  let start := find request (lit " ") 0
  let stop := find request (lit " ") (sizeAdd start 1)
  if start = npos ∨ stop = npos then pure ∅
  else do
    let width ← difference stop start
    let count ← difference width 1
    let pathWithQuery ← slice request (sizeAdd start 1) count
    let queryPos := find pathWithQuery (lit "?") 0
    if queryPos = npos then pure ∅
    else do
      let queryString ← slice pathWithQuery (sizeAdd queryPos 1) npos
      insertPairs (ampersandPieces queryString) ∅

/-- `get_session_id_from_cookie`. -/
def getSessionIdFromCookie (request : Bytes) : Sliced Bytes := do
  let cookiePos := find request (lit "Cookie:") 0
  if cookiePos = npos then pure []
  else do
    let sessionPos := find request (lit "session_id=") cookiePos
    if sessionPos = npos then pure []
    else do
      let start := sizeAdd sessionPos (lit "session_id=").length
      let semicolon := find request (lit ";") start
      let stop := if semicolon = npos then find request (lit "\r\n") start else semicolon
      if stop ≠ npos then do
        let count ← difference stop start
        slice request start count
      else pure []

/-- `extract_method_token`. -/
def extractMethodToken (raw : Bytes) : Sliced Bytes := do
  let line := firstLine raw
  let sp1 := find line (lit " ") 0
  if sp1 = npos ∨ sp1 = 0 then pure []
  else do
    let sp2 := find line (lit " ") (sizeAdd sp1 1)
    if sp2 = npos then pure []
    else do
      let versioned ← compare line (sizeAdd sp2 1) 5 (lit "HTTP/")
      if !versioned then pure []
      else if line.length ≤ sizeAdd sp2 6 then pure []
      else slice line 0 sp1

/-! ## What the operations do -/

/-- A sum that is no larger than `npos`. -/
theorem sum_eq {a b : Nat} (h : a + b ≤ npos) : sizeAdd a b = a + b :=
  size_add_eq (Nat.lt_succ_of_le h)

/-- A difference that does not wrap around is sound and the same at machine positions. -/
theorem difference_agrees {upper lower : Nat} (hle : lower ≤ upper) (h : upper ≤ npos) :
    Agrees Use.Sound (difference upper lower) (.ok (upper - lower)) := by
  have hsub : sizeSub upper lower = upper - lower := size_sub_eq hle (Nat.lt_succ_of_le h)
  rw [← hsub]
  exact .bind (.emit hle) (.pure _)

section

variable {s pat : Bytes} {pos : Nat}

/-- A slice inside the string is sound and the same at machine positions. -/
theorem slice_agrees (h : pos ≤ s.length) (count : Nat) :
    Agrees Use.Sound (slice s pos count) (.ok ((s.drop pos).take count)) := by
  rw [← substr_of_le h (some count)]
  exact .bind (.emit h) (.lift _)

/-- A slice to the end of the string: a count that reaches at least that far. -/
theorem slice_to_end_agrees (h : pos ≤ s.length) {count : Nat}
    (hcount : s.length ≤ pos + count) :
    Agrees Use.Sound (slice s pos count) (.ok (s.drop pos)) := by
  have hwhole : (s.drop pos).take count = s.drop pos :=
    List.take_of_length_le (by rw [List.length_drop]; omega)
  have hslice := slice_agrees h count
  rwa [hwhole] at hslice

/-- A comparison inside the string is sound and the same at machine positions. -/
theorem compare_agrees (h : pos ≤ s.length) (count : Nat) (other : Bytes) :
    Agrees Use.Sound (compare s pos count other) (compareAt s pos count other) :=
  .bind (.emit h) (.lift _)

/-- A search fails with `npos`, or finds a match inside the string. -/
theorem find_cases (pat : Bytes) (hs : s.length < npos) (hpos : pos ≤ s.length) :
    (findFrom s pat pos = none ∧ find s pat pos = npos) ∨
      ∃ i, findFrom s pat pos = some i ∧ find s pat pos = i ∧ i ≠ npos ∧ pos ≤ i ∧
        i + pat.length ≤ s.length := by
  unfold find
  cases hfind : findFrom s pat pos with
  | none => exact Or.inl ⟨rfl, rfl⟩
  | some i =>
      obtain ⟨j, hj, rfl⟩ := Option.map_eq_some_iff.mp hfind
      have hbound := Text.find_add_length_le hj
      rw [List.length_drop] at hbound
      exact Or.inr ⟨_, rfl, rfl, by omega, by omega, by omega⟩

/-- A search from the start of the string is a search in the string. -/
theorem find_from_zero (s pat : Bytes) : findFrom s pat 0 = Text.find pat s := by
  unfold findFrom
  rw [List.drop_zero]
  exact Option.map_id'

/-- The loop over white space ends at the first byte that is none, at the latest at the end of the
string. -/
theorem skip_agrees (hs : s.length < npos) (hpos : pos ≤ s.length) :
    Agrees Use.Sound (skip s.length (s.drop pos) pos) (.ok (skipSpace s pos)) := by
  induction hrest : s.drop pos generalizing pos with
  | nil =>
      have hstop : skipSpace s pos = pos := by simp [skipSpace, hrest]
      rw [hstop]
      exact .bind (.emit hpos) (.pure pos)
  | cons c rest ih =>
      have hlt : pos < s.length := by
        by_contra hge
        rw [List.drop_of_length_le (by omega)] at hrest
        cases hrest
      have hnext : s.drop (pos + 1) = rest := by rw [← List.drop_drop, hrest]; rfl
      refine .bind (.emit hpos) ?_
      cases hc : isSpace c with
      | true =>
          have hskip : skipSpace s pos = skipSpace s (pos + 1) := by
            simp only [skipSpace, hrest, hnext, List.takeWhile_cons, hc, if_true, List.length_cons]
            omega
          rw [hskip, if_pos rfl, sum_eq (by omega)]
          exact ih hlt hnext
      | false =>
          have hstop : skipSpace s pos = pos := by simp [skipSpace, hrest, hc]
          rw [hstop]
          exact .pure pos

end

/-! ## The helpers -/

/-- At machine positions `extract_header_value` is sound and gives the same. -/
theorem extract_header_value_agrees {request : Bytes} (hlength : request.length < npos)
    (headerName : Bytes) :
    Agrees Use.Sound (extractHeaderValue request headerName)
      (Dvws.extractHeaderValue request headerName) := by
  unfold extractHeaderValue Dvws.extractHeaderValue
  rw [← find_from_zero]
  rcases find_cases headerName hlength (Nat.zero_le _) with
    ⟨hnone, hfind⟩ | ⟨headerPos, hsome, hfind, hfound, -, hbound⟩
  · rw [hnone, hfind, if_pos rfl]
    exact .pure []
  · have hvalue := skip_space_le hbound
    rw [hsome, hfind, if_neg hfound, sum_eq (by omega)]
    refine .bind (skip_agrees hlength hbound) ?_
    dsimp only
    generalize skipSpace request (headerPos + headerName.length) = valuePos at hvalue
    rw [substr_of_le hvalue]
    -- the end of the line, or a count that reaches to the end of the text
    rcases find_cases (lit "\r\n") hlength hvalue with
      ⟨hnone, hcrlf⟩ | ⟨stop, hsome, hcrlf, hstop, hle, hend⟩
    · rw [hnone, hcrlf, if_pos rfl, Option.none_or]
      rcases find_cases (lit "\n") hlength hvalue with
        ⟨hnone, hlf⟩ | ⟨stop, hsome, hlf, hstop, hle, hend⟩
      · rw [hnone, hlf]
        exact .bind (difference_agrees (by omega) (Nat.le_refl _))
          (slice_to_end_agrees hvalue (by omega))
      · rw [hsome, hlf]
        exact .bind (difference_agrees hle (by omega)) (slice_agrees hvalue _)
    · rw [hsome, hcrlf, if_neg hstop]
      exact .bind (difference_agrees hle (by omega)) (slice_agrees hvalue _)

/-- The loop over the pieces of a query at machine positions. -/
theorem insert_pairs_agrees {pairs : List Bytes} (hlength : ∀ pair ∈ pairs, pair.length < npos)
    (params : Params) :
    Agrees Use.Sound (insertPairs pairs params) (Dvws.insertPairs pairs params) := by
  induction pairs generalizing params with
  | nil => exact .pure params
  | cons pair pairs ih =>
      have hpair := hlength pair List.mem_cons_self
      have hrest := fun other hother => hlength other (List.mem_cons_of_mem _ hother)
      unfold insertPairs Dvws.insertPairs
      rw [← find_from_zero]
      rcases find_cases (lit "=") hpair (Nat.zero_le _) with
        ⟨hnone, hfind⟩ | ⟨eqPos, hsome, hfind, hfound, -, hbound⟩
      · rw [hnone, hfind, if_pos rfl]
        exact ih hrest params
      · have hle : eqPos + 1 ≤ pair.length := hbound
        rw [hsome, hfind, if_neg hfound, sum_eq (by omega)]
        dsimp only
        rw [substr_of_le (Nat.zero_le _), ok_bind, substr_of_le hle, ok_bind]
        refine .bind (slice_agrees (Nat.zero_le _) eqPos) ?_
        exact .bind (slice_to_end_agrees hle (by omega)) (ih hrest _)

/-- A part of a joined list is no longer than the whole. -/
theorem length_le_intercalate {part : Bytes} {parts : List Bytes} (sep : Bytes)
    (h : part ∈ parts) :
    part.length ≤ (sep.intercalate parts).length := by
  induction parts with
  | nil => cases h
  | cons first parts ih =>
      by_cases hnil : parts = []
      · subst hnil
        obtain rfl := List.mem_singleton.mp h
        rw [List.intercalate_singleton]
      · rw [List.intercalate_cons_of_ne_nil hnil, List.length_append, List.length_append]
        rcases List.mem_cons.mp h with rfl | hrest
        · omega
        · have hpart := ih hrest
          omega

/-- The pieces of a query are no longer than the query. -/
theorem length_le_of_mem_pieces {query piece : Bytes} (h : piece ∈ ampersandPieces query) :
    piece.length ≤ query.length := by
  have hsplit : piece ∈ query.splitOn 38 := by
    unfold ampersandPieces at h
    dsimp only at h
    split at h
    · exact List.mem_of_mem_dropLast h
    · exact h
  have hlength := length_le_intercalate [38] hsplit
  rwa [List.intercalate_splitOn] at hlength

/-- At machine positions `extract_query_parameters` is sound and gives the same. -/
theorem extract_query_parameters_agrees {request : Bytes} (hlength : request.length < npos) :
    Agrees Use.Sound (extractQueryParameters request) (Dvws.extractQueryParameters request) := by
  unfold extractQueryParameters Dvws.extractQueryParameters
  rw [← find_from_zero]
  rcases find_cases (lit " ") hlength (Nat.zero_le _) with
    ⟨hnone, hfind⟩ | ⟨start, hsome, hfind, hfound, -, hbound⟩
  · rw [hnone, hfind]
    exact .pure ∅
  · have hstart : start + 1 ≤ request.length := hbound
    have hsum : sizeAdd start 1 = start + 1 := sum_eq (by omega)
    rw [hsome, hfind]
    dsimp only
    rw [hsum]
    rcases find_cases (lit " ") hlength hstart with
      ⟨hnone, hstop⟩ | ⟨stop, hsome, hstop, hfoundStop, hle, hend⟩
    · rw [hnone, hstop, if_pos (Or.inr rfl)]
      exact .pure ∅
    · rw [hsome, hstop, if_neg (not_or.mpr ⟨hfound, hfoundStop⟩)]
      dsimp only
      rw [substr_of_le hstart, ok_bind]
      refine .bind (difference_agrees (by omega) (by omega)) ?_
      refine .bind (difference_agrees (by omega) (by omega)) ?_
      refine .bind (slice_agrees hstart _) ?_
      dsimp only
      have hpath : ((request.drop (start + 1)).take (stop - start - 1)).length < npos := by
        rw [List.length_take, List.length_drop]
        omega
      generalize (request.drop (start + 1)).take (stop - start - 1) = path at hpath
      rw [← find_from_zero]
      rcases find_cases (lit "?") hpath (Nat.zero_le _) with
        ⟨hnone, hquery⟩ | ⟨queryPos, hsome, hquery, hfoundQuery, -, hboundQuery⟩
      · rw [hnone, hquery, if_pos rfl]
        exact .pure ∅
      · have hmark : queryPos + 1 ≤ path.length := hboundQuery
        rw [hsome, hquery, if_neg hfoundQuery, sum_eq (by omega)]
        dsimp only
        rw [substr_of_le hmark, ok_bind]
        refine .bind (slice_to_end_agrees hmark (by omega)) (insert_pairs_agrees ?_ ∅)
        intro piece hpiece
        have hshort := length_le_of_mem_pieces hpiece
        rw [List.length_drop] at hshort
        omega

/-- At machine positions `get_session_id_from_cookie` is sound and gives the same. -/
theorem get_session_id_from_cookie_agrees {request : Bytes} (hlength : request.length < npos) :
    Agrees Use.Sound (getSessionIdFromCookie request) (Dvws.getSessionIdFromCookie request) := by
  unfold getSessionIdFromCookie Dvws.getSessionIdFromCookie
  rw [← find_from_zero]
  rcases find_cases (lit "Cookie:") hlength (Nat.zero_le _) with
    ⟨hnone, hfind⟩ | ⟨cookiePos, hsome, hfind, hfound, -, hbound⟩
  · rw [hnone, hfind, if_pos rfl]
    exact .pure []
  · rw [hsome, hfind, if_neg hfound]
    dsimp only
    have hcookie : cookiePos ≤ request.length := by omega
    rcases find_cases (lit "session_id=") hlength hcookie with
      ⟨hnone, hsession⟩ | ⟨sessionPos, hsome, hsession, hfoundSession, -, hstart⟩
    · rw [hnone, hsession, if_pos rfl]
      exact .pure []
    · rw [hsome, hsession, if_neg hfoundSession, sum_eq (by omega)]
      dsimp only
      generalize sessionPos + (lit "session_id=").length = start at hstart
      rcases find_cases (lit ";") hlength hstart with
        ⟨hnone, hsemicolon⟩ | ⟨stop, hsome, hsemicolon, hstop, hle, hend⟩
      · rw [hnone, hsemicolon, if_pos rfl, Option.none_or]
        rcases find_cases (lit "\r\n") hlength hstart with
          ⟨hnone, hcrlf⟩ | ⟨stop, hsome, hcrlf, hstop, hle, hend⟩
        · rw [hnone, hcrlf, if_neg (not_not_intro rfl)]
          exact .pure []
        · rw [hsome, hcrlf, if_pos hstop]
          dsimp only
          rw [substr_of_le hstart]
          exact .bind (difference_agrees hle (by omega)) (slice_agrees hstart _)
      · rw [hsome, hsemicolon, if_neg hstop, if_pos hstop]
        dsimp only [Option.some_or]
        rw [substr_of_le hstart]
        exact .bind (difference_agrees hle (by omega)) (slice_agrees hstart _)

/-- The five characters of a version lie inside the line. -/
theorem version_inside {line : Bytes} {pos : Nat}
    (h : (line.drop pos).take 5 = lit "HTTP/") : pos + 5 ≤ line.length := by
  have htaken : ((line.drop pos).take 5).length = 5 := by
    rw [h]
    rfl
  rw [List.length_take, List.length_drop] at htaken
  omega

/-- At machine positions `extract_method_token` is sound and gives the same. -/
theorem extract_method_token_agrees {raw : Bytes} (hlength : raw.length < npos) :
    Agrees Use.Sound (extractMethodToken raw) (Dvws.extractMethodToken raw) := by
  have hline : (firstLine raw).length < npos :=
    Nat.lt_of_le_of_lt (first_line_starts raw).length_le hlength
  unfold extractMethodToken Dvws.extractMethodToken
  generalize firstLine raw = line at hline
  dsimp only
  rw [← find_from_zero]
  rcases find_cases (lit " ") hline (Nat.zero_le _) with
    ⟨hnone, hfind⟩ | ⟨sp1, hsome, hfind, hfound, -, hbound⟩
  · rw [hnone, hfind, if_pos (Or.inl rfl)]
    exact .pure []
  · have hsp1 : sp1 + 1 ≤ line.length := hbound
    rw [hsome, hfind, sum_eq (by omega)]
    dsimp only
    by_cases hzero : sp1 = 0
    · rw [if_pos (Or.inr hzero), if_pos hzero]
      exact .pure []
    · rw [if_neg (not_or.mpr ⟨hfound, hzero⟩), if_neg hzero]
      rcases find_cases (lit " ") hline hsp1 with
        ⟨hnone, hnext⟩ | ⟨sp2, hsome, hnext, hfoundNext, -, hboundNext⟩
      · rw [hnone, hnext, if_pos rfl]
        exact .pure []
      · have hsp2 : sp2 + 1 ≤ line.length := hboundNext
        rw [hsome, hnext, if_neg hfoundNext, sum_eq (by omega)]
        dsimp only
        have hcompare := compare_agrees hsp2 5 (lit "HTTP/")
        rw [compareAt_of_le hsp2] at hcompare ⊢
        rw [ok_bind]
        refine .bind hcompare ?_
        split
        · exact .pure []
        · rename_i hversion
          -- the version lies inside the line, so `sp2 + 6` does not wrap around
          have hsix : sp2 + 1 + 5 ≤ line.length := version_inside (by simpa using hversion)
          rw [sum_eq (by omega)]
          split
          · exact .pure []
          · rw [substr_of_le (Nat.zero_le _)]
            exact slice_agrees (Nat.zero_le _) sp1

/-- No position that the helpers compute lies outside its string, no length wraps around, and none
of them throws; and the loop over white space stops inside the string. -/
theorem slicing_is_sound {request : Bytes} (hlength : request.length < npos) (headerName : Bytes) :
    Behaves Use.Sound id (extractHeaderValue request headerName) ∧
      Behaves Use.Sound id (extractQueryParameters request) ∧
      Behaves Use.Sound id (getSessionIdFromCookie request) ∧
      Behaves Use.Sound id (extractMethodToken request) ∧
      ∀ pos ≤ request.length, ∃ stop ≤ request.length,
        Agrees Use.Sound (skip request.length (request.drop pos) pos) (.ok stop) :=
  ⟨(extract_header_value_agrees hlength headerName).behaves
      (extract_header_value_returns request headerName),
    (extract_query_parameters_agrees hlength).behaves (extract_query_parameters_returns request),
    (get_session_id_from_cookie_agrees hlength).behaves
      (get_session_id_from_cookie_returns request),
    (extract_method_token_agrees hlength).behaves (extract_method_token_returns request),
    fun pos hpos => ⟨skipSpace request pos, skip_space_le hpos, skip_agrees hlength hpos⟩⟩

/-- The value of a header at the end of its text is read to the end. -/
theorem slicing_is_sound_unended :
    Behaves Use.Sound id (extractHeaderValue (lit "GET / HTTP/1.1\nHost: \n") (lit "Host:")) :=
  (@slicing_is_sound (lit "GET / HTTP/1.1\nHost: \n") (by decide +kernel) (lit "Host:")).1

end Slicing

end Dvws
