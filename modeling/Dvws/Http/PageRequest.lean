import Dvws.Http.Headers
import Dvws.Http.Normalisation
import Dvws.Wire.Response

/-!
# Requests for pages

The request that a client writes for a page: the request line of a GET, header fields line by line,
and the empty line. For a path of visible ASCII characters without colons and question marks
(`PlainPath`) `parse` reads the path as it was written, and a header lookup passes over the request
line and reads the fields.
-/

namespace Dvws

open HttpRequest Wire

/-- A path below the root that stands in a request line as it is, and fits into the path buffer. -/
structure PlainPath (path : Bytes) : Prop where
  bytes : ∀ c ∈ path, 32 < c ∧ c < 127 ∧ c ≠ 58 ∧ c ≠ 63
  start : path ≠ [] ∧ path.head? ≠ some 47
  short : path.length ≤ 198

/-- The request line for a path, with its end. -/
def pageLine (path : Bytes) : Bytes := lit "GET /" ++ path ++ lit " HTTP/1.1\r\n"

/-- The text of a request with these fields. -/
def pageText (path : Bytes) (fields : List Field) : Bytes :=
  pageLine path ++ renderFields fields ++ lineEnd

variable {path : Bytes}

/-- A plain path has no white space, control character, colon or question mark. -/
theorem PlainPath.not_mem (h : PlainPath path) {c : UInt8} (hc : c ≤ 32 ∨ c = 58 ∨ c = 63) :
    c ∉ path := by
  intro hmem
  obtain ⟨hvisible, -, hcolon, hquestion⟩ := h.bytes c hmem
  obtain hblank | rfl | rfl := hc
  · exact absurd hvisible (UInt8.not_lt.mpr hblank)
  · exact hcolon rfl
  · exact hquestion rfl

/-- The request line has no colon. -/
theorem PlainPath.colon_not_mem_line (h : PlainPath path) : 58 ∉ pageLine path := by
  have hfront : (58 : UInt8) ∉ lit "GET /" := by decide
  have hback : (58 : UInt8) ∉ lit " HTTP/1.1\r\n" := by decide
  simp only [pageLine, List.mem_append, not_or]
  exact ⟨⟨hfront, h.not_mem (by decide)⟩, hback⟩

/-- A request is read whole when its fields are. -/
theorem cstr_page_text (h : PlainPath path) {fields : List Field}
    (hfields : 0 ∉ renderFields fields) : cstr (pageText path fields) = pageText path fields := by
  have hfront : (0 : UInt8) ∉ lit "GET /" := by decide
  have hback : (0 : UInt8) ∉ lit " HTTP/1.1\r\n" := by decide
  have hend : (0 : UInt8) ∉ lineEnd := by decide
  refine cstr_of_not_mem ?_
  simp only [pageText, pageLine, List.mem_append, not_or]
  exact ⟨⟨⟨⟨hfront, h.not_mem (by decide)⟩, hback⟩, hfields⟩, hend⟩

/-- The request is parsed as a GET request for the path. -/
theorem parse_page_text (h : PlainPath path) {fields : List Field}
    (hfields : 0 ∉ renderFields fields) :
    ∃ req, parse (pageText path fields) = .ok (true, req) ∧ req.method = lit "GET" ∧
      req.cleanPath = 47 :: path ∧ req.text = pageText path fields := by
  have hraw : cstr (pageText path fields) = [] ++ (lit "GET" ++ [32, 47] ++
      (path ++ lit " HTTP/" ++ (lit "1.1\r\n" ++ renderFields fields ++ lineEnd))) := by
    have hmarker : lit "GET /" = lit "GET" ++ [32, 47] := by decide
    have hversion : lit " HTTP/1.1\r\n" = lit " HTTP/" ++ lit "1.1\r\n" := by decide
    rw [cstr_page_text h hfields, pageText, pageLine, hmarker, hversion]
    simp only [List.append_assoc, List.nil_append]
  have hmethod : markerMethod (cstr (pageText path fields)) = some (lit "GET") := by
    rw [hraw, List.nil_append]
    exact marker_method_of_get _
  have hfits : (targetSlice (lit "GET") (47 :: path)).length < cleanPathSize :=
    Nat.lt_succ_of_le (Nat.le_succ_of_le h.short)
  have hparse := (parse_of_target hraw List.not_mem_nil (h.not_mem (by decide)) hmethod).trans
    (copy_target_of_fits hfits _)
  have hquestion : pathOf path = path := path_of_not_mem (h.not_mem (by decide))
  refine ⟨_, hparse, rfl, ?_, ?_⟩
  · have hstart : (pathOf path).head? ≠ some 47 := by
      rw [hquestion]
      exact h.start.2
    have hshort : (pathOf path).length ≤ 198 := by
      rw [hquestion]
      exact h.short
    have hclean := clean_path_of_get { empty (pageText path fields) with method := lit "GET" }
      hstart hshort
    rw [hquestion, if_neg h.start.1] at hclean
    exact hclean
  · rw [text_of_parse hparse, cstr_page_text h hfields]

/-- A text with a colon and without a line feed is looked for behind the request line. -/
theorem behind_page_line (h : PlainPath path) {pat : Bytes} (hcolon : 58 ∈ pat) (hline : 10 ∉ pat)
    (rest : Bytes) : Text.behind pat (pageLine path ++ rest) = Text.behind pat rest := by
  refine Text.behind_of_barrier (fun hinside => ?_) (Text.last_not_mem ?_ hline)
  · exact h.colon_not_mem_line (hinside.subset hcolon)
  · rw [pageLine, List.getLast?_append]
    rfl

/-- A header lookup finds no field where there is none. -/
theorem extract_of_no_field (h : PlainPath path) {name : Bytes} (hcolon : 58 ∈ name)
    (hline : 10 ∉ name) : extractHeaderValue (pageText path []) name = .ok [] := by
  have hnone : Text.behind name lineEnd = none := by
    unfold Text.behind
    rw [Text.find_eq_none_iff.mpr, Option.map_none]
    intro hinside
    have hmark : (58 : UInt8) ∉ lineEnd := by decide
    exact hmark (hinside.subset hcolon)
  have htext : pageText path [] = pageLine path ++ lineEnd := by
    rw [pageText, renderFields, List.flatMap_nil, List.append_nil]
  rw [extract_header_value_eq, htext, behind_page_line h hcolon hline, hnone]
  rfl

/-- A request without fields is one for the path, with no date to compare. -/
theorem parse_bare_page (h : PlainPath path) :
    ∃ req, parse (pageText path []) = .ok (true, req) ∧ req.method = lit "GET" ∧
      req.cleanPath = 47 :: path ∧
      extractHeaderValue req.text (lit "If-Modified-Since:") = .ok [] := by
  obtain ⟨req, hparse, hmethod, hclean, htext⟩ :=
    parse_page_text h (show 0 ∉ renderFields [] from List.not_mem_nil)
  refine ⟨req, hparse, hmethod, hclean, ?_⟩
  rw [htext]
  exact extract_of_no_field h (by decide) (by decide)

end Dvws
