import Dvws.Http.Request

/-!
# The two recognizers of a request line

`parse` recognizes a request twice: by a marker search over the whole text, and by reading the
first line in `extractMethodToken`. This file says what each of them computes.
`RequestLine line method target` is the shape the second one accepts, and
`extract_method_token_of_request_line` with `extract_method_token_of_malformed` characterize its
result. `Marked` is the condition under which the first one succeeds, and `parse_of_marked` and
`parse_of_not_marked` give the result of `parse` in terms of it.
-/

namespace Dvws

open HttpRequest

/-- `line` is `method SP target SP "HTTP/"` followed by at least one character, with a nonempty
method and no space in method or target. -/
def RequestLine (line method target : Bytes) : Prop :=
  ∃ version, version ≠ [] ∧ method ≠ [] ∧ 32 ∉ method ∧ 32 ∉ target ∧
    line = method ++ 32 :: (target ++ 32 :: (lit "HTTP/" ++ version))

/-! ## The first line -/

/-- A text starts with its first line. -/
theorem first_line_starts (s : Bytes) : firstLine s <+: s := by
  unfold firstLine
  split
  · exact List.take_prefix _ _
  · exact List.prefix_refl _

/-- The first line of a first line is that line. -/
theorem first_line_first_line (s : Bytes) : firstLine (firstLine s) = firstLine s := by
  cases h : Text.find (lit "\r\n") s with
  | none => simp [firstLine, h]
  | some eol =>
      have hnone := Text.find_take_eq_none (by decide) h
      simp [firstLine, h, hnone]

/-- The first line of a text that is read whole is read whole. -/
theorem cstr_first_line (raw : Bytes) : cstr (firstLine (cstr raw)) = firstLine (cstr raw) :=
  cstr_of_not_mem fun h => zero_not_mem_cstr raw ((first_line_starts _).subset h)

/-! ## The line recognizer -/

/-- A well-formed request line yields its method token. -/
theorem extract_method_token_of_request_line {raw method target : Bytes}
    (h : RequestLine (firstLine raw) method target) : extractMethodToken raw = .ok method := by
  obtain ⟨version, hversion, hmethod, hm, ht, hline⟩ := h
  have hvlen : 0 < version.length := List.length_pos_iff.mpr hversion
  have hmlen : method.length ≠ 0 := fun hzero => hmethod (List.length_eq_zero_iff.mp hzero)
  have hsp1 : Text.find (lit " ") (firstLine raw) = some method.length := by
    rw [hline]
    exact Text.find_singleton_append hm
  have hdrop : (firstLine raw).drop (method.length + 1) =
      target ++ 32 :: (lit "HTTP/" ++ version) := by
    rw [hline]
    exact List.drop_length_add_append 1
  have hsp2 : findFrom (firstLine raw) (lit " ") (method.length + 1) =
      some (target.length + (method.length + 1)) := by
    rw [findFrom, hdrop]
    exact congrArg (Option.map _) (Text.find_singleton_append ht)
  have hdrop2 : (firstLine raw).drop (target.length + (method.length + 1) + 1) =
      lit "HTTP/" ++ version := by
    rw [show target.length + (method.length + 1) + 1 =
      (method.length + 1) + (target.length + 1) by omega, ← List.drop_drop, hdrop]
    exact List.drop_length_add_append 1
  have hlen : (firstLine raw).length = method.length + target.length + version.length + 7 := by
    rw [hline]
    simp [show (lit "HTTP/").length = 5 from rfl]
    omega
  have hcompare : compareAt (firstLine raw) (target.length + (method.length + 1) + 1) 5
      (lit "HTTP/") = .ok true := by
    have hfive : (lit "HTTP/" ++ version).take 5 = lit "HTTP/" := rfl
    rw [compareAt_of_le (by omega), hdrop2, hfive, beq_self_eq_true]
  have htake : (firstLine raw).take method.length = method := by
    rw [hline, List.take_left]
  simp [extractMethodToken, hsp1, hmlen, hsp2, hcompare, substr_of_le, htake,
    show ¬ (firstLine raw).length ≤ target.length + (method.length + 1) + 6 by omega]

/-- The two separators and the version found by the line recognizer make a request line. -/
theorem request_line_of_separators {line : Bytes} {sp1 sp2 : Nat}
    (hsp1 : Text.find (lit " ") line = some sp1) (hzero : sp1 ≠ 0)
    (hsp2 : findFrom line (lit " ") (sp1 + 1) = some sp2)
    (hversion : (line.drop (sp2 + 1)).take 5 = lit "HTTP/") (hlen : sp2 + 6 < line.length) :
    RequestLine line (line.take sp1) ((line.drop (sp1 + 1)).take (sp2 - (sp1 + 1))) := by
  obtain ⟨gap, hgap, rfl⟩ := Option.map_eq_some_iff.mp hsp2
  have hsplit : line = line.take sp1 ++ 32 :: line.drop (sp1 + 1) :=
    Text.eq_append_cons_of_find hsp1
  have hrest : line.drop (sp1 + 1) = (line.drop (sp1 + 1)).take gap ++
      32 :: (line.drop (sp1 + 1)).drop (gap + 1) := Text.eq_append_cons_of_find hgap
  have hdrop : (line.drop (sp1 + 1)).drop (gap + 1) = line.drop (gap + (sp1 + 1) + 1) := by
    rw [List.drop_drop]
    congr 1
    omega
  refine ⟨line.drop (gap + (sp1 + 1) + 1 + 5), ?_, ?_, Text.not_mem_take_of_find hsp1, ?_, ?_⟩
  · intro hnil
    rw [List.drop_eq_nil_iff] at hnil
    omega
  · intro hnil
    rw [List.take_eq_nil_iff] at hnil
    rcases hnil with h | h
    · exact hzero h
    · simp [h] at hlen
  · rw [Nat.add_sub_cancel]
    exact Text.not_mem_take_of_find hgap
  · rw [Nat.add_sub_cancel, ← hversion, ← List.drop_drop (i := 5), List.take_append_drop]
    rw [← hdrop, ← hrest]
    exact hsplit

/-- A line of any other shape yields the empty token. -/
theorem extract_method_token_of_malformed {raw : Bytes}
    (h : ∀ method target, ¬ RequestLine (firstLine raw) method target) :
    extractMethodToken raw = .ok [] := by
  cases hsp1 : Text.find (lit " ") (firstLine raw) with
  | none => simp [extractMethodToken, hsp1]
  | some sp1 =>
      by_cases hzero : sp1 = 0
      · simp [extractMethodToken, hsp1, hzero]
      cases hsp2 : findFrom (firstLine raw) (lit " ") (sp1 + 1) with
      | none => simp [extractMethodToken, hsp1, hzero, hsp2]
      | some sp2 =>
          have hle : sp2 + 1 ≤ (firstLine raw).length := (findFrom_lt (by decide) hsp2).2
          by_cases hversion : ((firstLine raw).drop (sp2 + 1)).take 5 = lit "HTTP/"
          · by_cases hlen : (firstLine raw).length ≤ sp2 + 6
            · simp [extractMethodToken, hsp1, hzero, hsp2, compareAt_of_le hle, hversion, hlen]
            · exact (h _ _ (request_line_of_separators hsp1 hzero hsp2 hversion
                (by omega))).elim
          · simp [extractMethodToken, hsp1, hzero, hsp2, compareAt_of_le hle, hversion]

/-- The token depends on the first line only. -/
theorem extract_method_token_first_line (raw : Bytes) :
    extractMethodToken (firstLine raw) = extractMethodToken raw := by
  simp only [extractMethodToken, first_line_first_line]

/-- A line determines its method and target. -/
theorem RequestLine.unique {line method target other otherTarget : Bytes}
    (h : RequestLine line method target) (hother : RequestLine line other otherTarget) :
    method = other ∧ target = otherTarget := by
  obtain ⟨version, _, _, hm, ht, hline⟩ := h
  obtain ⟨otherVersion, _, _, hm', ht', hline'⟩ := hother
  rw [hline] at hline'
  have hfirst := congrArg (Text.find [32]) hline'
  rw [Text.find_singleton_append hm, Text.find_singleton_append hm', Option.some.injEq] at hfirst
  obtain ⟨rfl, htail⟩ := List.append_inj hline' hfirst
  rw [List.cons.injEq] at htail
  have hsecond := congrArg (Text.find [32]) htail.2
  rw [Text.find_singleton_append ht, Text.find_singleton_append ht', Option.some.injEq]
    at hsecond
  exact ⟨rfl, (List.append_inj htail.2 hsecond).1⟩

/-! ## The marker recognizer -/

/-- The methods the server serves. -/
def servedMethods : List Bytes := methodMarkers.map Prod.fst

/-- The method whose marker the search of `parse` settles on: the first of `"GET /"`,
`"POST /"`, `"HEAD /"` that occurs anywhere in the text. -/
def markerMethod (s : Bytes) : Option Bytes := (sniffMethod s methodMarkers).map Prod.fst

/-- The first of the three markers that occurs anywhere in the text has `" HTTP/"` somewhere
after it. -/
def Marked (s : Bytes) : Prop :=
  ∃ method pathStart offset, sniffMethod s methodMarkers = some (method, pathStart, offset) ∧
    lit " HTTP/" <:+: s.drop pathStart

/-- `method_offset`: past the slash for GET and POST, at the slash for HEAD, which shares the
offset 5 of GET although its marker is one byte longer. -/
def methodOffset (method : Bytes) : Nat :=
  if method = lit "HEAD" then method.length + 1 else method.length + 2

/-- What the copied path keeps of a target that starts with a slash: the slash is dropped for
GET and POST and kept for HEAD. -/
def targetSlice (method target : Bytes) : Bytes :=
  if method = lit "HEAD" then target else target.drop 1

/-- Every marker is its method followed by a space and a slash. -/
theorem marker_shape : ∀ entry ∈ methodMarkers,
    entry.2.1 = entry.1 ++ [32, 47] ∧ entry.2.2 = methodOffset entry.1 ∧ 32 ∉ entry.1 := by
  decide

/-- A settled search found the marker of its method at its first position. -/
theorem find_of_sniff_method {s method : Bytes} {markers : List (Bytes × Bytes × Nat)}
    {pathStart offset : Nat} (h : sniffMethod s markers = some (method, pathStart, offset)) :
    ∃ marker, (method, marker, offset) ∈ markers ∧ Text.find marker s = some pathStart := by
  induction markers with
  | nil => simp [sniffMethod] at h
  | cons entry rest ih =>
      rcases entry with ⟨m, marker, off⟩
      cases hfind : Text.find marker s with
      | none =>
          obtain ⟨found, hmem, hfound⟩ := ih (by simpa [sniffMethod, hfind] using h)
          exact ⟨found, by simp [hmem], hfound⟩
      | some i =>
          simp only [sniffMethod, hfind, Option.some.injEq, Prod.mk.injEq] at h
          obtain ⟨rfl, rfl, rfl⟩ := h
          exact ⟨marker, by simp, hfind⟩

/-- For a served method the search gives the first position of its marker, and its offset. -/
theorem find_of_sniff_served {s method : Bytes} {pathStart offset : Nat}
    (h : sniffMethod s methodMarkers = some (method, pathStart, offset)) :
    Text.find (method ++ [32, 47]) s = some pathStart ∧ offset = methodOffset method := by
  obtain ⟨marker, hmem, hfind⟩ := find_of_sniff_method h
  obtain ⟨hmarker, hoffset, _⟩ := marker_shape _ hmem
  exact ⟨hmarker ▸ hfind, hoffset⟩

/-- When more text brings no marker of higher priority, the search settles as before. -/
theorem sniff_method_append {s t : Bytes} {found : Bytes × Nat × Nat}
    (h : sniffMethod s methodMarkers = some found)
    (hsame : markerMethod (s ++ t) = markerMethod s) :
    sniffMethod (s ++ t) methodMarkers = some found := by
  rcases found with ⟨method, pathStart, offset⟩
  simp only [markerMethod, h, Option.map_some, Option.map_eq_some_iff] at hsame
  obtain ⟨⟨other, otherStart, otherOffset⟩, hsniff, rfl⟩ := hsame
  obtain ⟨hfind, rfl⟩ := find_of_sniff_served h
  obtain ⟨hother, rfl⟩ := find_of_sniff_served hsniff
  rw [Text.find_append_of_some hfind, Option.some.injEq] at hother
  rw [hsniff, hother]

/-- Cutting off text after the marker that was found leaves the search with the same method. -/
theorem sniff_method_of_append {s t method : Bytes} {markers : List (Bytes × Bytes × Nat)}
    {pathStart offset : Nat} (h : sniffMethod (s ++ t) markers = some (method, pathStart, offset))
    (hfound : ∀ marker, (method, marker, offset) ∈ markers → marker <:+: s) :
    ∃ start, sniffMethod s markers = some (method, start, offset) := by
  induction markers with
  | nil => simp [sniffMethod] at h
  | cons entry rest ih =>
      rcases entry with ⟨m, marker, off⟩
      cases hfind : Text.find marker (s ++ t) with
      | some i =>
          simp only [sniffMethod, hfind, Option.some.injEq, Prod.mk.injEq] at h
          obtain ⟨rfl, rfl, rfl⟩ := h
          obtain ⟨j, hj⟩ := Text.exists_find_iff.mpr (hfound marker (by simp))
          exact ⟨j, by simp [sniffMethod, hj]⟩
      | none =>
          have hnone : Text.find marker s = none := Text.find_eq_none_iff.mpr fun hinside =>
            Text.find_eq_none_iff.mp hfind (hinside.trans (List.prefix_append s t).isInfix)
          obtain ⟨j, hj⟩ := ih (by simpa [sniffMethod, hfind] using h)
            (fun found hmem => hfound found (by simp [hmem]))
          exact ⟨j, by simpa [sniffMethod, hnone] using hj⟩

/-- A target that fits `clean_path` is copied and taken apart. -/
theorem copy_target_of_fits {target : Bytes} (h : target.length < cleanPathSize)
    (out : HttpRequest) : copyTarget out target = .ok (true, setTarget out target) := by
  rw [copyTarget, strcpy, if_pos h, ok_bind]
  rfl

/-- A target that does not fit `clean_path` overruns it. -/
theorem copy_target_overruns {target : Bytes} (h : ¬ target.length < cleanPathSize)
    (out : HttpRequest) : copyTarget out target = .error .overrun := by
  rw [copyTarget, strcpy, if_neg h]
  rfl

/-- The copy returns only for a target that fits. -/
theorem copy_target_eq_ok_iff {target : Bytes} {out : HttpRequest}
    {result : Bool × HttpRequest} : copyTarget out target = .ok result ↔
      target.length < cleanPathSize ∧ result = (true, setTarget out target) := by
  by_cases h : target.length < cleanPathSize
  · rw [copy_target_of_fits h, Except.ok.injEq, and_iff_right h, eq_comm]
  · rw [copy_target_overruns h]
    exact iff_of_false (by simp) fun hfits => h hfits.1

/-- Once both searches succeed, `parse` copies the text between the two places. -/
theorem parse_of_found {raw method : Bytes} {pathStart offset pathEnd : Nat}
    (hsniff : sniffMethod (cstr raw) methodMarkers = some (method, pathStart, offset))
    (hend : Text.find (lit " HTTP/") ((cstr raw).drop pathStart) = some pathEnd) :
    parse raw = copyTarget { empty raw with method := method }
      ((((cstr raw).drop pathStart).take pathEnd).drop offset) := by
  simp [parse, hsniff, hend]

/-- A served method has no space in its name. -/
theorem not_space_of_marker_method {s method : Bytes} (h : markerMethod s = some method) :
    32 ∉ method := by
  obtain ⟨⟨found, pathStart, offset⟩, hsniff, rfl⟩ := Option.map_eq_some_iff.mp h
  obtain ⟨marker, hmem, -⟩ := find_of_sniff_method hsniff
  exact (marker_shape _ hmem).2.2

/-- Without a space before it, a marker is found where it stands. -/
theorem find_marker {front method rest : Bytes} (hfront : 32 ∉ front) (hmethod : 32 ∉ method) :
    Text.find (method ++ [32, 47]) (front ++ (method ++ [32, 47] ++ rest)) =
      some front.length := by
  refine Text.find_eq_some_iff.mpr ⟨by simp, ?_, fun j hj hocc => ?_⟩
  · rw [List.drop_left]
    exact List.prefix_append _ _
  · -- the space of the marker would stand before it
    rw [List.drop_append_of_le_length hj.le, List.append_assoc, ← List.append_assoc] at hocc
    have hshort : method ++ [32] <+: front.drop j ++ method ++ ([32, 47] ++ rest) := by
      refine List.IsPrefix.trans ⟨[47], ?_⟩ hocc
      simp
    have hinside : method ++ [32] <+: front.drop j ++ method := by
      refine List.prefix_of_prefix_length_le hshort (List.prefix_append _ _) ?_
      rw [List.length_append, List.length_append, List.length_drop, List.length_singleton]
      omega
    have hmem : (32 : UInt8) ∈ front.drop j ++ method := hinside.subset (by simp)
    rcases List.mem_append.mp hmem with h | h
    · exact hfront (List.mem_of_mem_drop h)
    · exact hmethod h

/-- The version is looked for behind the slash. -/
theorem find_version {method rest : Bytes} (hmethod : 32 ∉ method) :
    Text.find (lit " HTTP/") (method ++ [32, 47] ++ rest) =
      (Text.find (lit " HTTP/") rest).map (· + (method.length + 2)) := by
  have hversion : lit " HTTP/" = 32 :: lit "HTTP/" := rfl
  have hspace : ¬ 32 :: lit "HTTP/" <+: 32 :: 47 :: rest := by
    intro hstart
    obtain ⟨tail, hsame⟩ := hstart
    exact absurd hsame (by simp [show lit "HTTP/" = 72 :: lit "TTP/" from rfl])
  have hslash : ¬ 32 :: lit "HTTP/" <+: 47 :: rest := by
    intro hstart
    obtain ⟨tail, hsame⟩ := hstart
    exact absurd hsame (by simp)
  have hsplit : method ++ [32, 47] ++ rest = method ++ 32 :: 47 :: rest := by simp
  rw [hsplit, hversion, Text.find_append_of_not_mem hmethod, Text.find_cons_of_not_starts hspace,
    Text.find_cons_of_not_starts hslash, Option.map_map, Option.map_map]
  congr 1
  funext i
  show i + 1 + 1 + method.length = i + (method.length + 2)
  omega

/-- `target` is the text between the marker that `parse` settles on, that of `method`, and the next
`" HTTP/"`. -/
def TargetText (s method target : Bytes) : Prop :=
  ∃ rest stop, markerMethod s = some method ∧ Text.behind (method ++ [32, 47]) s = some rest ∧
    Text.find (lit " HTTP/") rest = some stop ∧ target = rest.take stop

/-- The text that `parse` copies is the target, but for the slash of the marker. -/
theorem parse_of_target_text {raw method target : Bytes} (h : TargetText (cstr raw) method target) :
    parse raw =
      copyTarget { empty raw with method := method } (targetSlice method (47 :: target)) := by
  obtain ⟨rest, stop, hmarker, hbehind, hstop, rfl⟩ := h
  have hmethod := not_space_of_marker_method hmarker
  obtain ⟨⟨found, pathStart, offset⟩, hsniff, rfl⟩ := Option.map_eq_some_iff.mp hmarker
  obtain ⟨hfind, rfl⟩ := find_of_sniff_served hsniff
  rw [Text.behind, hfind, Option.map_some, Option.some.injEq, ← List.drop_drop] at hbehind
  have hdrop : (cstr raw).drop pathStart = found ++ [32, 47] ++ rest := by
    obtain ⟨tail, htail⟩ := (Text.find_eq_some_iff.mp hfind).2.1
    rw [← htail, List.drop_left] at hbehind
    rw [← htail, hbehind]
  have hend : Text.find (lit " HTTP/") ((cstr raw).drop pathStart) =
      some (stop + (found.length + 2)) := by
    rw [hdrop, find_version hmethod, hstop, Option.map_some]
  have htake : ((cstr raw).drop pathStart).take (stop + (found.length + 2)) =
      found ++ (32 :: 47 :: rest.take stop) := by
    have hlength : stop + (found.length + 2) = (found ++ [32, 47]).length + stop := by
      rw [List.length_append]
      exact Nat.add_comm _ _
    rw [hdrop, hlength, List.take_length_add_append]
    simp
  rw [parse_of_found hsniff hend, htake]
  congr 1
  show (found ++ (32 :: 47 :: rest.take stop)).drop (methodOffset found) =
    targetSlice found (47 :: rest.take stop)
  unfold methodOffset targetSlice
  split
  · exact List.drop_length_add_append 1
  · exact List.drop_length_add_append 2

/-- A text that is accepted has that text for its target, which fits. -/
theorem target_of_parse {raw method target : Bytes} {accepted : Bool} {req : HttpRequest}
    (hparse : parse raw = .ok (accepted, req)) (h : TargetText (cstr raw) method target) :
    (targetSlice method (47 :: target)).length < cleanPathSize ∧
      req = setTarget { empty raw with method := method } (targetSlice method (47 :: target)) := by
  rw [parse_of_target_text h, copy_target_eq_ok_iff] at hparse
  exact ⟨hparse.1, (Prod.mk.inj hparse.2).2⟩

/-- A text with no space before the marker that is found is accepted with the target up to the
version. -/
theorem parse_of_version {raw front method rest : Bytes} {stop : Nat}
    (hraw : cstr raw = front ++ (method ++ [32, 47] ++ rest)) (hfront : 32 ∉ front)
    (hstop : Text.find (lit " HTTP/") rest = some stop)
    (hmarker : markerMethod (cstr raw) = some method) :
    parse raw = copyTarget { empty raw with method := method }
      (targetSlice method (47 :: rest.take stop)) := by
  refine parse_of_target_text ⟨rest, stop, hmarker, ?_, hstop, rfl⟩
  rw [hraw, Text.behind, find_marker hfront (not_space_of_marker_method hmarker), Option.map_some,
    ← List.drop_drop, List.drop_left, List.drop_left]

/-- The marker of a GET request is found. -/
theorem marker_method_of_get (text : Bytes) :
    markerMethod (lit "GET" ++ [32, 47] ++ text) = some (lit "GET") := by
  have hfind : Text.find (lit "GET /") (lit "GET" ++ [32, 47] ++ text) = some 0 :=
    Text.find_of_starts_with (List.prefix_append _ _)
  simp only [markerMethod, methodMarkers, sniffMethod, hfind, Option.map_some]

/-- The target of a GET request without spaces. -/
theorem target_text_of_get {s target tail : Bytes}
    (h : s = lit "GET" ++ [32, 47] ++ (target ++ lit " HTTP/" ++ tail)) (htarget : 32 ∉ target) :
    TargetText s (lit "GET") target := by
  have hmarker := marker_method_of_get (target ++ lit " HTTP/" ++ tail)
  have hfind : Text.find (lit "GET" ++ [32, 47])
      (lit "GET" ++ [32, 47] ++ (target ++ lit " HTTP/" ++ tail)) = some 0 :=
    Text.find_of_starts_with (List.prefix_append _ _)
  have hstop : Text.find (lit " HTTP/") (target ++ lit " HTTP/" ++ tail) = some target.length :=
    Text.find_append_cons htarget
  rw [h]
  refine ⟨_, _, hmarker, ?_, hstop, ?_⟩
  · rw [Text.behind, hfind, Option.map_some, Nat.zero_add, List.drop_left]
  · rw [List.append_assoc target, List.take_left]

/-- A target without spaces is taken whole. -/
theorem parse_of_target {raw front method rest tail : Bytes}
    (hraw : cstr raw = front ++ (method ++ [32, 47] ++ (rest ++ lit " HTTP/" ++ tail)))
    (hfront : 32 ∉ front) (hrest : 32 ∉ rest) (hmarker : markerMethod (cstr raw) = some method) :
    parse raw =
      copyTarget { empty raw with method := method } (targetSlice method (47 :: rest)) := by
  have hstop : Text.find (lit " HTTP/") (rest ++ lit " HTTP/" ++ tail) = some rest.length :=
    Text.find_append_cons hrest
  have hparse := parse_of_version hraw hfront hstop hmarker
  rwa [List.append_assoc rest, List.take_left] at hparse

/-- A marked text has a target. -/
theorem target_text_of_marked {s : Bytes} (h : Marked s) :
    ∃ method target, TargetText s method target := by
  obtain ⟨method, pathStart, offset, hsniff, hversion⟩ := h
  have hmarker : markerMethod s = some method := by rw [markerMethod, hsniff, Option.map_some]
  obtain ⟨hfind, -⟩ := find_of_sniff_served hsniff
  obtain ⟨rest, hrest⟩ := (Text.find_eq_some_iff.mp hfind).2.1
  rw [← hrest] at hversion
  obtain ⟨stop, hstop⟩ := Text.exists_find_iff.mpr hversion
  rw [find_version (not_space_of_marker_method hmarker)] at hstop
  obtain ⟨length, hlength, -⟩ := Option.map_eq_some_iff.mp hstop
  refine ⟨method, rest.take length, rest, length, hmarker, ?_, hlength, rfl⟩
  rw [Text.behind, hfind, Option.map_some, ← List.drop_drop, ← hrest, List.drop_left]

/-- A text has one target. -/
theorem TargetText.unique {s method target other otherTarget : Bytes}
    (h : TargetText s method target) (hother : TargetText s other otherTarget) :
    method = other ∧ target = otherTarget := by
  obtain ⟨rest, stop, hmarker, hbehind, hstop, rfl⟩ := h
  obtain ⟨rest', stop', hmarker', hbehind', hstop', rfl⟩ := hother
  obtain rfl := Option.some.inj (hmarker.symm.trans hmarker')
  obtain rfl := Option.some.inj (hbehind.symm.trans hbehind')
  obtain rfl := Option.some.inj (hstop.symm.trans hstop')
  exact ⟨rfl, rfl⟩

/-- What `parse` copies of the target, if the text has one, fits `clean_path` with its NUL. -/
def FitsCleanPath (s : Bytes) : Prop :=
  ∀ method target, TargetText s method target →
    (targetSlice method (47 :: target)).length < cleanPathSize

/-- The target of a text fits `clean_path` exactly when the copy of it does. -/
theorem TargetText.fits_iff {s method target : Bytes} (h : TargetText s method target) :
    FitsCleanPath s ↔ (targetSlice method (47 :: target)).length < cleanPathSize := by
  constructor
  · intro hfits
    exact hfits method target h
  · intro hlength other otherTarget hother
    obtain ⟨rfl, rfl⟩ := h.unique hother
    exact hlength

/-- A marked text is accepted with the method of its marker, if its target fits. -/
theorem parse_of_marked {raw : Bytes} (h : Marked (cstr raw)) (hfits : FitsCleanPath (cstr raw)) :
    ∃ method target, TargetText (cstr raw) method target ∧ parse raw = .ok (true,
      setTarget { empty raw with method := method } (targetSlice method (47 :: target))) := by
  obtain ⟨method, target, htarget⟩ := target_text_of_marked h
  refine ⟨method, target, htarget, ?_⟩
  rw [parse_of_target_text htarget, copy_target_of_fits (hfits method target htarget)]

/-- A text with a target is marked. -/
theorem TargetText.marked {s method target : Bytes} (h : TargetText s method target) :
    Marked s := by
  obtain ⟨rest, stop, hmarker, hbehind, hstop, rfl⟩ := h
  have hmethod := not_space_of_marker_method hmarker
  obtain ⟨⟨found, pathStart, offset⟩, hsniff, rfl⟩ := Option.map_eq_some_iff.mp hmarker
  obtain ⟨hfind, rfl⟩ := find_of_sniff_served hsniff
  refine ⟨found, pathStart, _, hsniff, Text.exists_find_iff.mp ⟨stop + (found.length + 2), ?_⟩⟩
  rw [Text.behind, hfind, Option.map_some, Option.some.injEq, ← List.drop_drop] at hbehind
  obtain ⟨tail, htail⟩ := (Text.find_eq_some_iff.mp hfind).2.1
  rw [← htail, List.drop_left] at hbehind
  rw [← htail, hbehind, find_version hmethod, hstop, Option.map_some]

/-- A text that is not marked is rejected with the token of its first line. -/
theorem parse_of_not_marked {raw token : Bytes} (h : ¬ Marked (cstr raw))
    (htoken : extractMethodToken (cstr raw) = .ok token) :
    parse raw = .ok (false, { empty raw with method := token }) := by
  cases hsniff : sniffMethod (cstr raw) methodMarkers with
  | none => simp [parse, hsniff, htoken]
  | some found =>
      rcases found with ⟨method, pathStart, offset⟩
      have hend : Text.find (lit " HTTP/") ((cstr raw).drop pathStart) = none :=
        Text.find_eq_none_iff.mpr fun hinside => h ⟨method, pathStart, offset, hsniff, hinside⟩
      simp [parse, hsniff, hend, htoken]

/-- `extractMethodToken` does not throw. -/
theorem extract_method_token_returns (raw : Bytes) :
    ∃ token, extractMethodToken raw = .ok token := by
  by_cases h : ∃ method target, RequestLine (firstLine raw) method target
  · obtain ⟨method, target, hline⟩ := h
    exact ⟨method, extract_method_token_of_request_line hline⟩
  · exact ⟨[], extract_method_token_of_malformed fun method target hline =>
      h ⟨method, target, hline⟩⟩

/-- `parse` overruns `clean_path` exactly when the target does not fit; otherwise it returns, and
accepts exactly the marked texts. -/
theorem parse_cases (raw : Bytes) :
    (¬ FitsCleanPath (cstr raw) ∧ parse raw = .error .overrun) ∨
    (FitsCleanPath (cstr raw) ∧
      ∃ accepted out, parse raw = .ok (accepted, out) ∧ (accepted = true ↔ Marked (cstr raw))) := by
  by_cases hmarked : Marked (cstr raw)
  · by_cases hfits : FitsCleanPath (cstr raw)
    · obtain ⟨method, target, -, hparse⟩ := parse_of_marked hmarked hfits
      exact .inr ⟨hfits, true, _, hparse, by simp [hmarked]⟩
    · obtain ⟨method, target, htarget⟩ := target_text_of_marked hmarked
      rw [htarget.fits_iff] at hfits
      refine .inl ⟨htarget.fits_iff.not.mpr hfits, ?_⟩
      rw [parse_of_target_text htarget, copy_target_overruns hfits]
  · obtain ⟨token, htoken⟩ := extract_method_token_returns (cstr raw)
    refine .inr ⟨fun method target htarget => absurd htarget.marked hmarked, false, _,
      parse_of_not_marked hmarked htoken, by simp [hmarked]⟩

/-- A text whose target fits is parsed. -/
theorem parse_returns {raw : Bytes} (h : FitsCleanPath (cstr raw)) :
    ∃ accepted out, parse raw = .ok (accepted, out) ∧ (accepted = true ↔ Marked (cstr raw)) := by
  obtain ⟨hoverrun, -⟩ | ⟨-, hreturns⟩ := parse_cases raw
  · exact absurd h hoverrun
  · exact hreturns

/-- When the target fits, `parse` accepts the text for which it copies a target. -/
theorem parse_of_copy {raw target : Bytes} {out : HttpRequest}
    (h : parse raw = copyTarget out target) (hfits : FitsCleanPath (cstr raw)) :
    parse raw = .ok (true, setTarget out target) := by
  obtain ⟨accepted, found, hparse, -⟩ := parse_returns hfits
  rw [h] at hparse
  rw [h, copy_target_of_fits (copy_target_eq_ok_iff.mp hparse).1]

/-- A text whose target does not fit ends the process. -/
theorem parse_overruns {raw : Bytes} (h : ¬ FitsCleanPath (cstr raw)) :
    parse raw = .error .overrun := by
  obtain ⟨-, hoverrun⟩ | ⟨hfits, -⟩ := parse_cases raw
  · exact hoverrun
  · exact absurd hfits h

/-- The target of a text that is parsed fits. -/
theorem fits_of_parse {raw : Bytes} {result : Bool × HttpRequest} (h : parse raw = .ok result) :
    FitsCleanPath (cstr raw) := by
  by_contra hoverruns
  rw [parse_overruns hoverruns] at h
  cases h

/-- A text that is parsed is accepted when it is marked. -/
theorem accepted_iff_marked {raw : Bytes} {accepted : Bool} {req : HttpRequest}
    (h : parse raw = .ok (accepted, req)) : accepted = true ↔ Marked (cstr raw) := by
  obtain ⟨accepted', out, hreturns, hmarked⟩ := parse_returns (fits_of_parse h)
  obtain ⟨rfl, -⟩ := Prod.mk.inj (Except.ok.inj (hreturns.symm.trans h))
  exact hmarked

/-- An accepted text is marked. -/
theorem marked_of_parse {raw : Bytes} {req : HttpRequest} (h : parse raw = .ok (true, req)) :
    Marked (cstr raw) := (accepted_iff_marked h).mp rfl

/-- The object keeps the buffer that was parsed. -/
theorem raw_of_parse {raw : Bytes} {accepted : Bool} {req : HttpRequest}
    (h : parse raw = .ok (accepted, req)) : req.raw = raw := by
  by_cases hmarked : Marked (cstr raw)
  · obtain ⟨method, target, -, hparse⟩ := parse_of_marked hmarked (fits_of_parse h)
    obtain ⟨-, rfl⟩ := Prod.mk.inj (Except.ok.inj (hparse.symm.trans h))
    rfl
  · obtain ⟨token, htoken⟩ := extract_method_token_returns (cstr raw)
    have hparse := parse_of_not_marked hmarked htoken
    obtain ⟨-, rfl⟩ := Prod.mk.inj (Except.ok.inj (hparse.symm.trans h))
    rfl

/-- The text of a parsed request is that of the buffer. -/
theorem text_of_parse {raw : Bytes} {accepted : Bool} {req : HttpRequest}
    (h : parse raw = .ok (accepted, req)) : req.text = cstr raw := by
  rw [text, raw_of_parse h]

end Dvws
