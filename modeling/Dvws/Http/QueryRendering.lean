import Dvws.Http.Parameters

/-!
# Queries read back

A query is rendered as its segments with `&` between them (`renderQuery`): pairs `key=value`, and
texts without a `=`, which say nothing. `extractQueryParameters` of a request line with such a
query inserts the pairs in their order (`extract_of_rendered`), so that every key is left with its
last value, and the texts between the pairs make no difference.
-/

namespace Dvws

open Text

/-- What stands between the `&`s of a query. -/
inductive Segment where
  /-- `key=value` -/
  | pair (key value : Bytes)
  /-- a text without `=` -/
  | extra (text : Bytes)
  deriving DecidableEq, Repr

namespace Segment

/-- The segment as it is written. -/
def text : Segment → Bytes
  | pair key value => key ++ 61 :: value
  | extra text => text

/-- The key and the value that a segment gives it. -/
def assigns : Segment → Option (Bytes × Bytes)
  | pair key value => some (key, value)
  | extra _ => none

/-- The segment is written without the characters that would end it, its key or the target. -/
def Plain : Segment → Prop
  | pair key value => (61 ∉ key ∧ 38 ∉ key ∧ 32 ∉ key) ∧ 38 ∉ value ∧ 32 ∉ value
  | extra text => 61 ∉ text ∧ 38 ∉ text ∧ 32 ∉ text

instance : DecidablePred Plain
  | pair _ _ => inferInstanceAs (Decidable ((_ ∧ _ ∧ _) ∧ _ ∧ _))
  | extra _ => inferInstanceAs (Decidable (_ ∧ _ ∧ _))

/-- A segment is read as what it was written from. -/
theorem Plain.assignment_text {segment : Segment} (h : segment.Plain) :
    assignment segment.text = segment.assigns := by
  cases segment with
  | pair key value =>
      obtain ⟨⟨hkey, _, _⟩, _, _⟩ := h
      exact assignment_eq_some_iff.mpr ⟨rfl, hkey⟩
  | extra text =>
      have hfind : find (lit "=") text = none := find_singleton_eq_none_iff.mpr h.1
      rw [Segment.text, assigns, assignment, hfind, Option.map_none]

/-- A segment has neither a `&` nor a space. -/
theorem Plain.text_not_mem {segment : Segment} (h : segment.Plain) :
    38 ∉ segment.text ∧ 32 ∉ segment.text := by
  cases segment with
  | pair key value =>
      obtain ⟨⟨_, hkeyAmp, hkeySpace⟩, hvalueAmp, hvalueSpace⟩ := h
      exact ⟨by simp [text, hkeyAmp, hvalueAmp], by simp [text, hkeySpace, hvalueSpace]⟩
  | extra text => exact ⟨h.2.1, h.2.2⟩

end Segment

/-- The query of these segments. -/
def renderQuery (segments : List Segment) : Bytes := [38].intercalate (segments.map Segment.text)

/-- The segments of these pairs. -/
def pairSegments (pairs : List (Bytes × Bytes)) : List Segment :=
  pairs.map fun pair => Segment.pair pair.1 pair.2

/-- A request for a path with a query. -/
def renderRequest (method path query rest : Bytes) : Bytes :=
  method ++ lit " " ++ path ++ lit "?" ++ query ++ lit " HTTP/1.1" ++ rest

/-- The pairs of a rendered query are read back in their order. -/
theorem assignments_of_rendered {segments : List Segment} (h : ∀ s ∈ segments, s.Plain) :
    (ampersandPieces (renderQuery segments)).filterMap assignment =
      segments.filterMap Segment.assigns := by
  rw [assignments_of_pieces]
  cases segments with
  | nil => rfl
  | cons segment segments =>
      have hamp : ∀ text ∈ (segment :: segments).map Segment.text, (38 : UInt8) ∉ text := by
        intro text htext
        obtain ⟨s, hs, rfl⟩ := List.mem_map.mp htext
        exact (h s hs).text_not_mem.1
      rw [renderQuery, List.splitOn_intercalate 38 hamp (List.cons_ne_nil _ _),
        List.filterMap_map]
      exact List.filterMap_congr fun s hs => (h s hs).assignment_text

/-- A rendered query has no space. -/
theorem not_space_rendered {segments : List Segment} (h : ∀ s ∈ segments, s.Plain) :
    32 ∉ renderQuery segments := by
  induction segments with
  | nil => exact List.not_mem_nil
  | cons segment segments ih =>
      have hhead := (h segment List.mem_cons_self).text_not_mem.2
      have htail := ih fun s hs => h s (List.mem_cons_of_mem _ hs)
      by_cases hnil : segments = []
      · subst hnil
        rwa [renderQuery, List.map_singleton, List.intercalate_singleton]
      · have hne : segments.map Segment.text ≠ [] := by simpa using hnil
        rw [renderQuery, List.map_cons, List.intercalate_cons_of_ne_nil hne, ← renderQuery]
        simp [hhead, htail]

/-- The parameters of a request line with a rendered query are its pairs, inserted in their
order. -/
theorem extract_of_rendered {method path rest : Bytes} {segments : List Segment}
    (hmethod : 32 ∉ method) (hpath : 32 ∉ path ∧ 63 ∉ path) (h : ∀ s ∈ segments, s.Plain) :
    extractQueryParameters (renderRequest method path (renderQuery segments) rest) =
      .ok ((segments.filterMap Segment.assigns).foldl
        (fun params pair => params.insert pair.1 pair.2) ∅) := by
  have htarget : (32 : UInt8) ∉ path ++ 63 :: renderQuery segments := by
    simp [hpath.1, not_space_rendered h]
  have hline : renderRequest method path (renderQuery segments) rest =
      method ++ 32 :: ((path ++ 63 :: renderQuery segments) ++ 32 :: (lit "HTTP/1.1" ++ rest)) := by
    simp [renderRequest, show lit " " = [32] from rfl, show lit "?" = [63] from rfl,
      show lit " HTTP/1.1" = 32 :: lit "HTTP/1.1" from rfl]
  have hquery : queryOf (path ++ 63 :: renderQuery segments) = renderQuery segments := by
    have hbehind : behind (lit "?") (path ++ 63 :: renderQuery segments) =
        some (renderQuery segments) := behind_singleton_append hpath.2
    rw [queryOf, hbehind, Option.getD_some]
  rw [extract_query_parameters_eq, hline, line_target_of_spaces hmethod htarget, hquery,
    splitQuery, insert_pairs_eq, assignments_of_rendered h]

/-- The query of a list of pairs gives every key its last value, also with texts without `=` put
between the pairs. -/
theorem extract_query_parameters_of_rendered {method path rest : Bytes}
    {pairs : List (Bytes × Bytes)} {segments : List Segment} (hmethod : 32 ∉ method)
    (hpath : 32 ∉ path ∧ 63 ∉ path) (hplain : ∀ s ∈ segments, s.Plain)
    (hpairs : segments.filterMap Segment.assigns = pairs) :
    ∃ params,
      extractQueryParameters (renderRequest method path (renderQuery (pairSegments pairs)) rest) =
        .ok params ∧
      extractQueryParameters (renderRequest method path (renderQuery segments) rest) =
        .ok params ∧
      ∀ key, params.lookup key = pairs.reverse.lookup key := by
  have hplainPairs : ∀ s ∈ pairSegments pairs, s.Plain := by
    intro s hs
    obtain ⟨⟨key, value⟩, hmem, rfl⟩ := List.mem_map.mp hs
    subst hpairs
    obtain ⟨segment, hsegment, hassigns⟩ := List.mem_filterMap.mp hmem
    cases segment with
    | pair key' value' =>
        obtain ⟨rfl, rfl⟩ := Prod.mk.inj (Option.some.inj hassigns)
        exact hplain _ hsegment
    | extra text => cases hassigns
  have hassigned : (pairSegments pairs).filterMap Segment.assigns = pairs := by
    rw [pairSegments, List.filterMap_map]
    exact List.filterMap_some
  refine ⟨_, ?_, extract_of_rendered hmethod hpath hplain, fun key => ?_⟩
  · rw [extract_of_rendered hmethod hpath hplainPairs, hassigned, hpairs]
  · rw [hpairs, lookup_foldl_insert, AList.lookup_empty, Option.or_none]

/-- Of two values for one key the last is read, with an empty key and a text that says nothing
beside them. -/
theorem extract_query_parameters_of_rendered_twice :
    ∃ params,
      extractQueryParameters (lit "GET /logs?a=1&=?&a=b=c HTTP/1.1\r\n\r\n") = .ok params ∧
      extractQueryParameters (lit "GET /logs?a=1&&=?&x&a=b=c HTTP/1.1\r\n\r\n") = .ok params ∧
      ∀ key, params.lookup key =
        [(lit "a", lit "b=c"), ([], lit "?"), (lit "a", lit "1")].lookup key := by
  have hplain : ∀ s ∈ [.pair (lit "a") (lit "1"), .extra [], .pair [] (lit "?"), .extra (lit "x"),
      .pair (lit "a") (lit "b=c")], Segment.Plain s := by decide
  have hmethod : (32 : UInt8) ∉ lit "GET" := by decide
  have hpath : (32 : UInt8) ∉ lit "/logs" ∧ (63 : UInt8) ∉ lit "/logs" := by decide
  exact extract_query_parameters_of_rendered hmethod hpath hplain rfl

end Dvws
