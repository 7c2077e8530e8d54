import Dvws.Http.Classification
import Dvws.Http.Headers
import Dvws.Http.Normalisation
import Dvws.Sessions.Cookie

/-!
# A GET request and its HEAD twin

The twin of a GET request has `HEAD` for its method token and the same text behind it. Every lookup
in the text finds in both what it finds in that text (`Twins`), as no name that is looked up has a
space in it. The searches of `parse` tell them apart: a marker of a GET or POST request anywhere in
the text comes before that of the twin, and the twin keeps the slash that a GET request drops and
gets back. `Regular` are the texts where neither makes a difference: those of the requests that are
parsed like their twins (`regular_iff`).
-/

namespace Dvws

open HttpRequest Text

/-- The GET request with this text behind its method token. -/
def getRequest (rest : Bytes) : Bytes := lit "GET " ++ rest

/-- The HEAD request with this text behind its method token. -/
def headRequest (rest : Bytes) : Bytes := lit "HEAD " ++ rest

/-! ## Lookups -/

/-- The object of a GET request, and that of its twin. -/
structure Twins (req twin : HttpRequest) : Prop where
  raw : ∃ rest, req.raw = getRequest rest ∧ twin.raw = headRequest rest
  method : req.method = lit "GET"
  twinMethod : twin.method = lit "HEAD"
  query : twin.query = req.query
  path : twin.cleanPath = req.cleanPath ∨ req.cleanPath = [] ∧ twin.cleanPath = lit "/"

/-- The text of a request starts with its method token. -/
theorem cstr_get_request (rest : Bytes) : cstr (getRequest rest) = lit "GET " ++ cstr rest :=
  List.takeWhile_append_of_pos (List.all_eq_true.mp (by decide))

/-- The text of a HEAD request is its method token and the text of the rest. -/
theorem cstr_head_request (rest : Bytes) : cstr (headRequest rest) = lit "HEAD " ++ cstr rest :=
  List.takeWhile_append_of_pos (List.all_eq_true.mp (by decide))

/-- A pattern without spaces is found in both where it is in the rest. -/
theorem find_in_twins (pat rest : Bytes) (hspace : 32 ∉ pat)
    (hget : ¬ pat <:+: lit "GET ") (hhead : ¬ pat <:+: lit "HEAD ") :
    find pat (cstr (getRequest rest)) = (find pat (cstr rest)).map (· + 4) ∧
      find pat (cstr (headRequest rest)) = (find pat (cstr rest)).map (· + 5) := by
  rw [cstr_get_request, cstr_head_request]
  exact ⟨find_append_of_barrier hget (last_not_mem rfl hspace),
    find_append_of_barrier hhead (last_not_mem rfl hspace)⟩

/-- Behind their method tokens, a HEAD request and its GET twin have the same bytes. -/
theorem drop_head_request (rest : Bytes) (i : Nat) :
    (headRequest rest).drop (i + 5) = (getRequest rest).drop (i + 4) := by
  rw [Nat.add_comm i, Nat.add_comm i, ← List.drop_drop, ← List.drop_drop]
  rfl

namespace Twins

variable {req twin : HttpRequest}

/-- The texts of twins are their method tokens and one and the same rest. -/
theorem text (h : Twins req twin) :
    ∃ rest, req.text = lit "GET " ++ cstr rest ∧ twin.text = lit "HEAD " ++ cstr rest := by
  obtain ⟨rest, hraw, htwin⟩ := h.raw
  refine ⟨rest, ?_, ?_⟩
  · rw [HttpRequest.text, hraw, cstr_get_request]
  · rw [HttpRequest.text, htwin, cstr_head_request]

/-- Only the path of the root is written in two ways. -/
theorem path_eq (h : Twins req twin) (hroot : req.cleanPath ≠ []) :
    twin.cleanPath = req.cleanPath :=
  h.path.resolve_right fun hpath => hroot hpath.1

/-- What does not tell these apart is the same for both. -/
theorem path_congr {β : Type} (h : Twins req twin) (f : Bytes → β) (hroot : f (lit "/") = f []) :
    f twin.cleanPath = f req.cleanPath := by
  rcases h.path with hpath | ⟨hpath, htwin⟩
  · rw [hpath]
  · rw [hpath, htwin, hroot]

/-- Both have the same text behind a name without spaces. -/
theorem behind_eq (h : Twins req twin) {name : Bytes} (hspace : 32 ∉ name)
    (hget : ¬ name <:+: lit "GET ") (hhead : ¬ name <:+: lit "HEAD ") :
    behind name twin.text = behind name req.text := by
  obtain ⟨rest, hraw, htwin⟩ := h.text
  rw [hraw, htwin, behind_of_barrier hget (last_not_mem rfl hspace),
    behind_of_barrier hhead (last_not_mem rfl hspace)]

/-- Both have the same headers. -/
theorem header_eq (h : Twins req twin) (name : Bytes) (hspace : 32 ∉ name)
    (hget : ¬ name <:+: lit "GET ") (hhead : ¬ name <:+: lit "HEAD ") :
    extractHeaderValue twin.text name = extractHeaderValue req.text name := by
  rw [extract_header_value_eq, extract_header_value_eq, h.behind_eq hspace hget hhead]

/-- Both have the same parameters. -/
theorem parameters_eq (h : Twins req twin) :
    extractQueryParameters twin.text = extractQueryParameters req.text := by
  obtain ⟨rest, hraw, htwin⟩ := h.text
  have hget : behind (lit " ") (lit "GET" ++ lit " " ++ cstr rest) = some (cstr rest) :=
    behind_append_of_barrier (by decide) (last_not_mem rfl (by decide))
  have hhead : behind (lit " ") (lit "HEAD" ++ lit " " ++ cstr rest) = some (cstr rest) :=
    behind_append_of_barrier (by decide) (last_not_mem rfl (by decide))
  have htarget : lineTarget twin.text = lineTarget req.text := by
    unfold lineTarget
    rw [hraw, htwin]
    exact congrArg (fun found => (Option.bind found _).getD []) (hhead.trans hget.symm)
  rw [extract_query_parameters_eq, extract_query_parameters_eq, htarget]

/-- Both name the same session. -/
theorem session_eq (h : Twins req twin) :
    getSessionIdFromCookie twin.text = getSessionIdFromCookie req.text := by
  rw [get_session_id_from_cookie_eq, get_session_id_from_cookie_eq, sessionText, sessionText,
    h.behind_eq (by decide) (by decide) (by decide)]

end Twins

/-! ## Parsing -/

/-- The text behind the method token starts with a slash and has a version in it. Between them is
a target whose path does not start with a slash again, and that leaves room for one in `clean_path`;
and no marker of a GET or POST request occurs anywhere. -/
structure Regular (rest : Bytes) : Prop where
  target : ∃ text stop, cstr rest = 47 :: text ∧ find (lit " HTTP/") text = some stop ∧
    (pathOf (text.take stop)).head? ≠ some 47 ∧ (text.take stop).length ≤ 198
  unmarked : ¬ lit "GET /" <:+: cstr rest ∧ ¬ lit "POST /" <:+: cstr rest

/-- The marker of a HEAD request is found where there is no other. -/
theorem marker_method_of_head {text : Bytes} (hget : ¬ lit "GET /" <:+: 47 :: text)
    (hpost : ¬ lit "POST /" <:+: 47 :: text) :
    markerMethod (lit "HEAD" ++ [32, 47] ++ text) = some (lit "HEAD") := by
  have hsplit : lit "HEAD" ++ [32, 47] ++ text = lit "HEAD" ++ 32 :: 47 :: text := by simp
  have hnone (marker : Bytes) (hstart : ¬ marker <:+: lit "HEAD") (hlast : 68 ∉ marker)
      (hspace : ¬ marker <+: 32 :: 47 :: text) (hrest : ¬ marker <:+: 47 :: text) :
      find marker (lit "HEAD" ++ 32 :: 47 :: text) = none := by
    have hoccurs : ¬ marker <:+: 32 :: 47 :: text := fun h =>
      (List.infix_cons_iff.mp h).elim hspace hrest
    rw [find_append_of_barrier hstart (last_not_mem rfl hlast), find_eq_none_iff.mpr hoccurs,
      Option.map_none]
  have hfind : find (lit "HEAD /") (lit "HEAD" ++ 32 :: 47 :: text) = some 0 :=
    find_of_starts_with ⟨text, rfl⟩
  have hnoGet := hnone (lit "GET /") (by decide) (by decide)
    (by simp [show lit "GET /" = 71 :: lit "ET /" from rfl]) hget
  have hnoPost := hnone (lit "POST /") (by decide) (by decide)
    (by simp [show lit "POST /" = 80 :: lit "OST /" from rfl]) hpost
  rw [hsplit]
  -- the other two are looked for first
  simp only [markerMethod, methodMarkers, sniffMethod, hnoGet, hnoPost, hfind, Option.map_some]

/-- A regular request and its twin are parsed alike. -/
theorem twins_of_regular {rest : Bytes} {req : HttpRequest} (h : Regular rest)
    (hparse : parse (getRequest rest) = .ok (true, req)) :
    ∃ twin, parse (headRequest rest) = .ok (true, twin) ∧ Twins req twin := by
  obtain ⟨⟨text, stop, hrest, hstop, hslash, hlength⟩, hget, hpost⟩ := h
  rw [hrest] at hget hpost
  have hraw : cstr (getRequest rest) = [] ++ (lit "GET" ++ [32, 47] ++ text) := by
    rw [cstr_get_request, hrest]
    rfl
  have htwin : cstr (headRequest rest) = [] ++ (lit "HEAD" ++ [32, 47] ++ text) := by
    rw [cstr_head_request, hrest]
    rfl
  have hmarker := marker_method_of_get text
  have htwinMarker := marker_method_of_head hget hpost
  have hreq := parse_of_version hraw List.not_mem_nil hstop (by rw [hraw]; exact hmarker)
  obtain ⟨-, hcopied⟩ := copy_target_eq_ok_iff.mp (hreq.symm.trans hparse)
  obtain ⟨-, rfl⟩ := Prod.mk.inj hcopied
  have htwinParse := parse_of_version htwin List.not_mem_nil hstop (by
    rw [htwin]
    exact htwinMarker)
  -- the slash that the twin keeps takes one byte more
  have hroom : (targetSlice (lit "HEAD") (47 :: text.take stop)).length < cleanPathSize :=
    Nat.succ_lt_succ (Nat.lt_succ_of_le hlength)
  have hpathLength : (pathOf (text.take stop)).length ≤ 198 :=
    (path_of_initial _).length_le.trans hlength
  refine ⟨_, htwinParse.trans (copy_target_of_fits hroom _), ⟨rest, rfl, rfl⟩, rfl, rfl, ?_, ?_⟩
  · rw [set_target_query rfl, set_target_query rfl, query_of_target_slice, query_of_target_slice]
  · show (setTarget _ (47 :: text.take stop)).cleanPath = (setTarget _ (text.take stop)).cleanPath ∨
      (setTarget _ (text.take stop)).cleanPath = [] ∧
        (setTarget _ (47 :: text.take stop)).cleanPath = lit "/"
    rw [clean_path_of_head, clean_path_of_get _ hslash hpathLength]
    by_cases hpath : pathOf (text.take stop) = []
    · right
      rw [if_pos hpath, hpath]
      exact ⟨rfl, rfl⟩
    · left
      rw [if_neg hpath]

/-- A text whose marker is that of a HEAD request has no other. -/
theorem unmarked_of_head {s : Bytes} (h : markerMethod s = some (lit "HEAD")) :
    ¬ lit "GET /" <:+: s ∧ ¬ lit "POST /" <:+: s := by
  constructor
  · intro hget
    obtain ⟨i, hi⟩ := exists_find_iff.mpr hget
    simp only [markerMethod, methodMarkers, sniffMethod, hi, Option.map_some,
      Option.some.injEq] at h
    exact absurd h (by decide)
  · intro hpost
    obtain ⟨i, hi⟩ := exists_find_iff.mpr hpost
    cases hget : find (lit "GET /") s with
    | some j =>
        simp only [markerMethod, methodMarkers, sniffMethod, hget, Option.map_some,
          Option.some.injEq] at h
        exact absurd h (by decide)
    | none =>
        simp only [markerMethod, methodMarkers, sniffMethod, hget, hi, Option.map_some,
          Option.some.injEq] at h
        exact absurd h (by decide)

/-- A GET request without a marker behind its method token has a slash there. -/
theorem slash_of_marker {text : Bytes} (h : markerMethod (lit "GET " ++ text) = some (lit "GET"))
    (hget : ¬ lit "GET /" <:+: text) : ∃ target, text = 47 :: target := by
  obtain ⟨⟨method, pathStart, offset⟩, hsniff, rfl⟩ := Option.map_eq_some_iff.mp h
  have hmarker := exists_find_iff.mp ⟨_, (find_of_sniff_served hsniff).1⟩
  have hmarker : lit "GET /" <:+: 71 :: 69 :: 84 :: 32 :: text := hmarker
  rcases List.infix_cons_iff.mp hmarker with hstart | hrest
  · obtain ⟨target, hsplit⟩ := hstart
    refine ⟨target, ?_⟩
    have hsame : 71 :: 69 :: 84 :: 32 :: 47 :: target = 71 :: 69 :: 84 :: 32 :: text := hsplit
    simpa using hsame.symm
  -- no other byte of the token begins the marker
  · have hskip (c : UInt8) (hc : 71 ≠ c) (tail : Bytes) (hinside : lit "GET /" <:+: c :: tail) :
        lit "GET /" <:+: tail := by
      rcases List.infix_cons_iff.mp hinside with hstart | hrest
      · obtain ⟨rest, hsame⟩ := hstart
        exact absurd (List.cons.inj hsame).1 hc
      · exact hrest
    have htext := hskip 32 (by decide) _ (hskip 84 (by decide) _ (hskip 69 (by decide) _ hrest))
    exact absurd htext hget

/-- Both get the same path only if that of the GET request has no slash of its own. -/
theorem path_of_same_clean_path {out twinOut : HttpRequest} {target : Bytes}
    (h : (setTarget twinOut (47 :: target)).cleanPath = (setTarget out target).cleanPath ∨
      (setTarget out target).cleanPath = [] ∧
        (setTarget twinOut (47 :: target)).cleanPath = lit "/") :
    (pathOf target).head? ≠ some 47 := by
  rw [clean_path_of_head, set_target_clean_path] at h
  by_cases hpath : pathOf target ≠ [] ∧ (pathOf target).head? ≠ some 47
  · exact hpath.2
  · rw [if_neg hpath] at h
    have hnil : pathOf target = [] := by
      rcases h with hsame | ⟨hnil, -⟩
      · have hlength := congrArg List.length hsame
        rw [List.length_cons] at hlength
        omega
      · exact hnil
    rw [hnil]
    decide

/-- Requests are parsed alike only if they are regular. -/
theorem regular_of_twins {rest : Bytes} {req twin : HttpRequest}
    (hparse : parse (getRequest rest) = .ok (true, req))
    (htwinParse : parse (headRequest rest) = .ok (true, twin)) (h : Twins req twin) :
    Regular rest := by
  have hmarker := (marker_method_of_accepted hparse).2
  have htwinMarker := (marker_method_of_accepted htwinParse).2
  rw [h.method, cstr_get_request] at hmarker
  rw [h.twinMethod, cstr_head_request] at htwinMarker
  obtain ⟨hget, hpost⟩ := unmarked_of_head htwinMarker
  have hbehind {marker : Bytes} (hnot : ¬ marker <:+: lit "HEAD " ++ cstr rest) :
      ¬ marker <:+: cstr rest := fun hinside =>
    hnot (hinside.trans (List.suffix_append _ _).isInfix)
  obtain ⟨text, htext⟩ := slash_of_marker hmarker (hbehind hget)
  have hraw : cstr (getRequest rest) = [] ++ (lit "GET" ++ [32, 47] ++ text) := by
    rw [cstr_get_request, htext]
    rfl
  have htwinRaw : cstr (headRequest rest) = [] ++ (lit "HEAD" ++ [32, 47] ++ text) := by
    rw [cstr_head_request, htext]
    rfl
  obtain ⟨stop, hstop⟩ : ∃ stop, find (lit " HTTP/") text = some stop := by
    obtain ⟨method, pathStart, offset, -, hversion⟩ := (marker_method_of_accepted hparse).1
    have hinside := hversion.trans (List.drop_suffix pathStart _).isInfix
    rw [hraw, List.nil_append] at hinside
    obtain ⟨i, hi⟩ := exists_find_iff.mpr hinside
    rw [find_version (by decide)] at hi
    obtain ⟨stop, hstop, -⟩ := Option.map_eq_some_iff.mp hi
    exact ⟨stop, hstop⟩
  have hreq := parse_of_version hraw List.not_mem_nil hstop (by
    rw [cstr_get_request]
    exact hmarker)
  have htwin := parse_of_version htwinRaw List.not_mem_nil hstop (by
    rw [cstr_head_request]
    exact htwinMarker)
  obtain ⟨-, hcopied⟩ := copy_target_eq_ok_iff.mp (hreq.symm.trans hparse)
  obtain ⟨hroom, htwinCopied⟩ := copy_target_eq_ok_iff.mp (htwin.symm.trans htwinParse)
  obtain ⟨-, rfl⟩ := Prod.mk.inj hcopied
  obtain ⟨-, rfl⟩ := Prod.mk.inj htwinCopied
  have hlength : (text.take stop).length ≤ 198 :=
    Nat.le_of_lt_succ (Nat.lt_of_succ_lt_succ hroom)
  refine ⟨⟨text, stop, htext, hstop, ?_, hlength⟩, hbehind hget, hbehind hpost⟩
  exact path_of_same_clean_path h.path

/-- The regular requests are those that are parsed like their twins. -/
theorem regular_iff {rest : Bytes} {req : HttpRequest}
    (hparse : parse (getRequest rest) = .ok (true, req)) :
    Regular rest ↔ ∃ twin, parse (headRequest rest) = .ok (true, twin) ∧ Twins req twin := by
  constructor
  · intro hregular
    exact twins_of_regular hregular hparse
  · intro htwins
    obtain ⟨twin, htwinParse, htwins⟩ := htwins
    exact regular_of_twins hparse htwinParse htwins

end Dvws
