import Dvws.Http.RequestLine

/-!
# Classification of requests by their first line

`ClassifiedByLine raw` is the contract of the parser at one request: acceptance, method and
target follow from the first line, and nothing after it matters. The marker search of `parse`
reads the whole text, and the copy of the target is not bounded, so the contract does not hold
everywhere. `classified_by_line_iff` gives the exact texts it holds for, as `MarkersFollowLine`, a
condition on where the three method markers occur and on the length of the target.
-/

namespace Dvws

open HttpRequest

/-- What `parse` reports besides the buffer it was given. -/
def verdict (raw : Bytes) : Except Exn (Bool × Bytes × Bytes × Bytes) :=
  (parse raw).map fun result =>
    (result.1, result.2.method, result.2.cleanPath, result.2.query)

/-- The parser classifies this request by its first line. The fields are that it returns, the three
outcomes of the contract, the meaning of a method reported with a rejection, and the irrelevance of
the text after the first line. -/
structure ClassifiedByLine (raw : Bytes) : Prop where
  returns : ∃ result, parse raw = .ok result
  served : ∀ method rest, RequestLine (firstLine (cstr raw)) method (47 :: rest) →
    method ∈ servedMethods →
    parse raw = .ok (true,
      setTarget { empty raw with method := method } (targetSlice method (47 :: rest)))
  unsupported : ∀ method target, RequestLine (firstLine (cstr raw)) method target →
    method ∉ servedMethods → parse raw = .ok (false, { empty raw with method := method })
  malformed : (∀ method target, ¬ RequestLine (firstLine (cstr raw)) method target) →
    parse raw = .ok (false, empty raw)
  rejectedMethod : ∀ out, parse raw = .ok (false, out) → out.method ≠ [] →
    out.method ∉ servedMethods
  lineOnly : verdict raw = verdict (firstLine (cstr raw))

/-- The markers occurring in the request agree with its first line. The text that is taken for a
target, if any, fits `clean_path`. For a served method with a target that starts with a slash, no
marker of higher priority occurs anywhere. For a served method with another target, the line itself
contains a later marker followed by `" HTTP/"`, and the rest of the text contains none of higher
priority. For any other line, no text is taken for a target. -/
structure MarkersFollowLine (raw : Bytes) : Prop where
  fits : FitsCleanPath (cstr raw)
  served : ∀ method rest, RequestLine (firstLine (cstr raw)) method (47 :: rest) →
    method ∈ servedMethods → markerMethod (cstr raw) = some method
  otherTarget : ∀ method target, RequestLine (firstLine (cstr raw)) method target →
    target.head? ≠ some 47 → method ∈ servedMethods →
    Marked (firstLine (cstr raw)) ∧
      markerMethod (cstr raw) = markerMethod (firstLine (cstr raw))
  otherLine : (∀ method target, RequestLine (firstLine (cstr raw)) method target →
    method ∉ servedMethods) → ¬ Marked (cstr raw) ∧ ¬ Marked (firstLine (cstr raw))

variable {raw : Bytes}

/-- A request line with a slash after its method starts with the method's marker. -/
theorem marker_prefix_of_request_line {line method rest : Bytes}
    (h : RequestLine line method (47 :: rest)) : method ++ [32, 47] <+: line := by
  obtain ⟨version, _, _, _, _, rfl⟩ := h
  exact ⟨rest ++ 32 :: (lit "HTTP/" ++ version), by simp⟩

/-- Of a served request line whose marker the search settles on, the own target is copied. -/
theorem parse_of_served_line {method rest : Bytes}
    (h : RequestLine (firstLine (cstr raw)) method (47 :: rest))
    (hmarker : markerMethod (cstr raw) = some method) :
    parse raw =
      copyTarget { empty raw with method := method } (targetSlice method (47 :: rest)) := by
  obtain ⟨tail, hs⟩ := first_line_starts (cstr raw)
  obtain ⟨version, -, -, -, ht, hline⟩ := h
  have hrest : (32 : UInt8) ∉ rest := fun hmem => ht (by simp [hmem])
  have hraw : cstr raw =
      [] ++ (method ++ [32, 47] ++ (rest ++ lit " HTTP/" ++ (version ++ tail))) := by
    rw [← hs, hline]
    simp [show lit " HTTP/" = 32 :: lit "HTTP/" from rfl]
  exact parse_of_target hraw List.not_mem_nil hrest hmarker

/-- A line in its own right is searched to the same method as the text it starts. -/
theorem marker_method_first_line {method rest : Bytes}
    (h : RequestLine (firstLine (cstr raw)) method (47 :: rest))
    (hmarker : markerMethod (cstr raw) = some method) :
    markerMethod (firstLine (cstr raw)) = some method := by
  obtain ⟨⟨found, pathStart, offset⟩, hsniff, rfl⟩ := Option.map_eq_some_iff.mp hmarker
  obtain ⟨tail, hs⟩ := first_line_starts (cstr raw)
  rw [← hs] at hsniff
  obtain ⟨start, hstart⟩ := sniff_method_of_append hsniff fun marker hmem => by
    rw [show marker = found ++ [32, 47] from (marker_shape _ hmem).1]
    exact (marker_prefix_of_request_line h).isInfix
  simp [markerMethod, hstart]

/-- The verdict on a target does not depend on the rest of the buffer. -/
theorem verdict_of_copy {other method target : Bytes}
    (h : parse raw = copyTarget { empty raw with method := method } target)
    (hother : parse other = copyTarget { empty other with method := method } target) :
    verdict raw = verdict other := by
  rw [verdict, verdict, h, hother, copyTarget, copyTarget]
  cases strcpy cleanPathSize target with
  | ok copied => rfl
  | error exn => rfl

/-- A marked line gives its verdict to every text it starts that has no marker of higher
priority. -/
theorem verdict_of_marked_line (hmarked : Marked (firstLine (cstr raw)))
    (hsame : markerMethod (cstr raw) = markerMethod (firstLine (cstr raw))) :
    Marked (cstr raw) ∧ verdict raw = verdict (firstLine (cstr raw)) := by
  obtain ⟨method, pathStart, offset, hsniff, hinside⟩ := hmarked
  obtain ⟨pathEnd, hend⟩ := Text.exists_find_iff.mpr hinside
  obtain ⟨tail, hs⟩ := first_line_starts (cstr raw)
  have hstart : pathStart ≤ (firstLine (cstr raw)).length :=
    Text.find_le_length (find_of_sniff_served hsniff).1
  have hsniffText : sniffMethod (cstr raw) methodMarkers = some (method, pathStart, offset) := by
    have happend := sniff_method_append (t := tail) hsniff (by rw [hs]; exact hsame)
    rwa [hs] at happend
  have hdrop : (cstr raw).drop pathStart = (firstLine (cstr raw)).drop pathStart ++ tail := by
    conv_lhs => rw [← hs]
    exact List.drop_append_of_le_length hstart
  have hendText : Text.find (lit " HTTP/") ((cstr raw).drop pathStart) = some pathEnd := by
    rw [hdrop]
    exact Text.find_append_of_some hend
  have htake : ((cstr raw).drop pathStart).take pathEnd =
      ((firstLine (cstr raw)).drop pathStart).take pathEnd := by
    rw [hdrop, List.take_append_of_le_length (Text.find_le_length hend)]
  refine ⟨⟨method, pathStart, offset, hsniffText, Text.exists_find_iff.mp ⟨_, hendText⟩⟩, ?_⟩
  have hline : parse (firstLine (cstr raw)) = _ :=
    parse_of_found (by rw [cstr_first_line]; exact hsniff) (by rw [cstr_first_line]; exact hend)
  rw [cstr_first_line, ← htake] at hline
  exact verdict_of_copy (parse_of_found hsniffText hendText) hline

/-- A verdict exposes acceptance and method. -/
theorem verdict_of_parse {accepted : Bool} {out : HttpRequest}
    (h : parse raw = .ok (accepted, out)) :
    verdict raw = .ok (accepted, out.method, out.cleanPath, out.query) := by
  rw [verdict, h]
  rfl

/-- An accepted request carries the method its marker search settled on. -/
theorem marker_method_of_accepted {out : HttpRequest} (h : parse raw = .ok (true, out)) :
    Marked (cstr raw) ∧ markerMethod (cstr raw) = some out.method := by
  have hmarked := marked_of_parse h
  obtain ⟨method, target, ⟨rest, stop, hmethod, -⟩, hfound⟩ :=
    parse_of_marked hmarked (fits_of_parse h)
  rw [h, Except.ok.injEq, Prod.mk.injEq] at hfound
  exact ⟨hmarked, by rw [hmethod, hfound.2]; rfl⟩

/-- A rejected request is not marked. -/
theorem not_marked_of_rejected {out : HttpRequest} (h : parse raw = .ok (false, out)) :
    ¬ Marked (cstr raw) := fun hmarked => Bool.noConfusion ((accepted_iff_marked h).mpr hmarked)

/-- The contract forces the markers to agree with the line. -/
theorem markers_follow_line_of_classified (h : ClassifiedByLine raw) : MarkersFollowLine raw := by
  obtain ⟨⟨accepted, out⟩, hparse⟩ := h.returns
  have hmarked := accepted_iff_marked hparse
  have hverdict := h.lineOnly
  rw [verdict_of_parse hparse] at hverdict
  obtain ⟨⟨lineAccepted, lineOut⟩, hlineParse⟩ : ∃ result,
      parse (firstLine (cstr raw)) = .ok result := by
    rw [verdict] at hverdict
    cases hline : parse (firstLine (cstr raw)) with
    | ok result => exact ⟨result, rfl⟩
    | error exn =>
        rw [hline] at hverdict
        cases hverdict
  have hlineMarked := accepted_iff_marked hlineParse
  rw [cstr_first_line] at hlineMarked
  rw [verdict_of_parse hlineParse, Except.ok.injEq, Prod.mk.injEq, Prod.mk.injEq] at hverdict
  obtain ⟨rfl, hmethod, _⟩ := hverdict
  refine ⟨fits_of_parse hparse, fun method rest hline hserved => ?_,
    fun method target hline _ hserved => ?_, fun hother => ?_⟩
  · exact (marker_method_of_accepted (h.served method rest hline hserved)).2
  · -- a rejection would report the served method of the line
    cases accepted with
    | false =>
        have hrejected := parse_of_not_marked (not_marked_of_rejected hparse)
          (extract_method_token_of_request_line hline)
        obtain ⟨_, _, hne, _⟩ := hline
        exact absurd hserved (h.rejectedMethod _ hrejected hne)
    | true =>
        have htext := (marker_method_of_accepted hparse).2
        have hfirst := (marker_method_of_accepted hlineParse).2
        rw [cstr_first_line] at hfirst
        exact ⟨hlineMarked.mp rfl, by rw [htext, hfirst, hmethod]⟩
  · have hrejected : accepted = false := by
      by_cases hline : ∃ method target, RequestLine (firstLine (cstr raw)) method target
      · obtain ⟨method, target, hline⟩ := hline
        have hsame := h.unsupported method target hline (hother method target hline)
        rw [hparse, Except.ok.injEq, Prod.mk.injEq] at hsame
        exact hsame.1
      · have hsame := h.malformed fun method target hl => hline ⟨method, target, hl⟩
        rw [hparse, Except.ok.injEq, Prod.mk.injEq] at hsame
        exact hsame.1
    subst hrejected
    exact ⟨by simpa using hmarked, by simpa using hlineMarked⟩

/-- Under markers that agree with the line, the unmarked texts are those whose line is not
served. -/
theorem not_marked_iff_of_markers (h : MarkersFollowLine raw) :
    ¬ Marked (cstr raw) ↔ ∀ method target, RequestLine (firstLine (cstr raw)) method target →
      method ∉ servedMethods := by
  constructor
  · intro hnot method target hline hserved
    by_cases hhead : target.head? = some 47
    · obtain ⟨rest, rfl⟩ : ∃ rest, target = 47 :: rest := List.head?_eq_some_iff.mp hhead
      have hparse := parse_of_served_line hline (h.served method rest hline hserved)
      exact hnot (marked_of_parse (parse_of_copy hparse h.fits))
    · obtain ⟨hmarked, hsame⟩ := h.otherTarget method target hline hhead hserved
      exact hnot (verdict_of_marked_line hmarked hsame).1
  · exact fun hother => (h.otherLine hother).1

/-- Under markers that agree with the line, the verdict is that of the line. -/
theorem verdict_of_markers_follow_line (h : MarkersFollowLine raw) :
    verdict raw = verdict (firstLine (cstr raw)) := by
  by_cases hother : ∀ method target, RequestLine (firstLine (cstr raw)) method target →
      method ∉ servedMethods
  · obtain ⟨hnot, hnotLine⟩ := h.otherLine hother
    obtain ⟨token, htoken⟩ := extract_method_token_returns (cstr raw)
    have hlineToken := htoken
    rw [← extract_method_token_first_line, ← cstr_first_line] at hlineToken
    rw [← cstr_first_line] at hnotLine
    rw [verdict_of_parse (parse_of_not_marked hnot htoken),
      verdict_of_parse (parse_of_not_marked hnotLine hlineToken)]
    rfl
  · push Not at hother
    obtain ⟨method, target, hline, hserved⟩ := hother
    by_cases hhead : target.head? = some 47
    · obtain ⟨rest, rfl⟩ : ∃ rest, target = 47 :: rest := List.head?_eq_some_iff.mp hhead
      have hmarker := h.served method rest hline hserved
      have hlineMarker := marker_method_first_line hline hmarker
      have hlineLine := hline
      rw [← first_line_first_line, ← cstr_first_line] at hlineLine
      rw [← cstr_first_line] at hlineMarker
      exact verdict_of_copy (parse_of_served_line hline hmarker)
        (parse_of_served_line hlineLine hlineMarker)
    · obtain ⟨hmarked, hsame⟩ := h.otherTarget method target hline hhead hserved
      exact (verdict_of_marked_line hmarked hsame).2

/-- Markers that agree with the line give the contract. -/
theorem classified_of_markers_follow_line (h : MarkersFollowLine raw) :
    ClassifiedByLine raw := by
  have hunmarked := not_marked_iff_of_markers h
  refine ⟨?_, fun method rest hline hserved => ?_, fun method target hline hmethod => ?_,
    fun hnone => ?_, fun out hparse hne hserved => ?_, verdict_of_markers_follow_line h⟩
  · obtain ⟨accepted, out, hparse, -⟩ := parse_returns h.fits
    exact ⟨_, hparse⟩
  · exact parse_of_copy (parse_of_served_line hline (h.served method rest hline hserved)) h.fits
  · refine parse_of_not_marked (hunmarked.mpr fun other otherTarget hother => ?_)
      (extract_method_token_of_request_line hline)
    exact (hline.unique hother).1 ▸ hmethod
  · exact parse_of_not_marked
      (hunmarked.mpr fun method target hline => (hnone method target hline).elim)
      (extract_method_token_of_malformed hnone)
  · -- the reported token is that of a line which is not served, or empty
    have hnot := not_marked_of_rejected hparse
    obtain ⟨token, htoken⟩ := extract_method_token_returns (cstr raw)
    have hsame := parse_of_not_marked hnot htoken
    rw [hparse, Except.ok.injEq, Prod.mk.injEq] at hsame
    obtain rfl : out.method = token := by rw [hsame.2]
    by_cases hline : ∃ method target, RequestLine (firstLine (cstr raw)) method target
    · obtain ⟨method, target, hline⟩ := hline
      rw [extract_method_token_of_request_line hline, Except.ok.injEq] at htoken
      exact hunmarked.mp hnot method target hline (htoken ▸ hserved)
    · rw [extract_method_token_of_malformed fun m t hm => hline ⟨m, t, hm⟩,
        Except.ok.injEq] at htoken
      exact hne htoken.symm

/-- The parser classifies a request by its first line exactly when the markers in the text agree
with that line, and the target fits. -/
theorem classified_by_line_iff (raw : Bytes) : ClassifiedByLine raw ↔ MarkersFollowLine raw :=
  ⟨markers_follow_line_of_classified, classified_of_markers_follow_line⟩

/-- A DELETE request with a `GET` marker in a header is accepted as that GET. -/
theorem not_classified_by_line_delete : ¬ ClassifiedByLine
    (lit "DELETE /a HTTP/1.1\r\nReferer: GET /b HTTP/1.1\r\n\r\n") := by
  intro h
  have hparse := h.unsupported (lit "DELETE") (lit "/a")
    ⟨lit "1.1", by decide, by decide, by decide, by decide, by decide⟩ (by decide)
  revert hparse
  decide

end Dvws
