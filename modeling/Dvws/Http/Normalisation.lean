import Dvws.Http.Parameters

/-!
# The path of a request

`parse` copies the text between the method marker and the version (`TargetText`) into `clean_path`,
cuts it at its first `?`, and puts a slash in front of the path again, through a buffer that has
room for 198 bytes of it. `Normalised` says that the copy fits and loses nothing. A GET or POST
request keeps the whole path if it starts with a slash or has at most 198 bytes; a HEAD request is
copied with the slash of its marker, which a path needs that is empty or starts with a slash of its
own does not.
-/

namespace Dvws

open HttpRequest Text

/-- The path of a target: what comes before its first `?`. -/
def pathOf (target : Bytes) : Bytes := ((find (lit "?") target).map target.take).getD target

/-- A target starts with its path. -/
theorem path_of_initial (target : Bytes) : pathOf target <+: target := by
  unfold pathOf
  cases find (lit "?") target with
  | none => exact List.prefix_refl _
  | some qmark => exact List.take_prefix _ _

/-- What `parse` makes of the path of a target. -/
theorem set_target_clean_path (out : HttpRequest) (target : Bytes) :
    (setTarget out target).cleanPath =
      if pathOf target ≠ [] ∧ (pathOf target).head? ≠ some 47
      then lit "/" ++ (pathOf target).take 198 else pathOf target := by
  unfold setTarget pathOf
  cases find (lit "?") target with
  | none => rfl
  | some qmark => rfl

/-- A path has no question mark. -/
theorem not_mem_path (target : Bytes) : 63 ∉ pathOf target := by
  unfold pathOf
  cases hfind : find (lit "?") target with
  | none => exact find_singleton_eq_none_iff.mp hfind
  | some qmark => exact not_mem_take_of_find hfind

/-- A target without a question mark is a path. -/
theorem path_of_not_mem {target : Bytes} (h : 63 ∉ target) : pathOf target = target := by
  have hnone : find (lit "?") target = none := find_singleton_eq_none_iff.mpr h
  rw [pathOf, hnone, Option.map_none, Option.getD_none]

/-- The path of an accepted request is empty or starts with a slash, and has no question mark. -/
theorem clean_path_of_parse {raw : Bytes} {req : HttpRequest} (h : parse raw = .ok (true, req)) :
    (req.cleanPath = [] ∨ req.cleanPath.head? = some 47) ∧ 63 ∉ req.cleanPath := by
  obtain ⟨method, target, -, hparse⟩ := parse_of_marked (marked_of_parse h) (fits_of_parse h)
  obtain ⟨-, rfl⟩ := Prod.mk.inj (Except.ok.inj (hparse.symm.trans h))
  have hmem := not_mem_path (targetSlice method (47 :: target))
  rw [set_target_clean_path]
  split
  · refine ⟨Or.inr rfl, fun hfound => ?_⟩
    rcases List.mem_append.mp hfound with hslash | htake
    · exact absurd hslash (by decide)
    · exact hmem (List.mem_of_mem_take htake)
  · rename_i hkept
    exact ⟨by tauto, hmem⟩

/-- A slash before a target is a slash before its path. -/
theorem path_of_cons_slash (target : Bytes) : pathOf (47 :: target) = 47 :: pathOf target := by
  have hslash : find (lit "?") (47 :: target) = (find (lit "?") target).map (· + 1) :=
    find_cons_of_not_starts (by simp [show lit "?" = [63] from rfl])
  unfold pathOf
  rw [hslash]
  cases find (lit "?") target with
  | none => rfl
  | some qmark => rfl

/-- A GET request keeps no slash of its target, and gets one back with a path that is not
empty. -/
theorem clean_path_of_get {target : Bytes} (out : HttpRequest)
    (hslash : (pathOf target).head? ≠ some 47) (hlength : (pathOf target).length ≤ 198) :
    (setTarget out target).cleanPath = if pathOf target = [] then [] else 47 :: pathOf target := by
  rw [set_target_clean_path, List.take_of_length_le hlength]
  by_cases hpath : pathOf target = []
  · rw [if_neg (fun h => h.1 hpath), if_pos hpath, hpath]
  · rw [if_pos ⟨hpath, hslash⟩, if_neg hpath]
    rfl

/-- A HEAD request keeps the slash. -/
theorem clean_path_of_head (out : HttpRequest) (target : Bytes) :
    (setTarget out (47 :: target)).cleanPath = 47 :: pathOf target := by
  rw [set_target_clean_path, path_of_cons_slash, if_neg]
  rw [List.head?_cons]
  exact fun h => h.2 rfl

/-! ## What is lost -/

/-- The path that a target asks for: its own, with a slash in front unless it is empty or starts
with one. -/
def requestedPath (target : Bytes) : Bytes :=
  if pathOf target = [] ∨ (pathOf target).head? = some 47 then pathOf target
  else 47 :: pathOf target

/-- The text that is copied fits `clean_path` with its NUL, and the whole path and the whole query
are kept. -/
structure Normalised (target : Bytes) (req : HttpRequest) : Prop where
  fits : (targetSlice req.method (47 :: target)).length < 200
  path : req.cleanPath = requestedPath target
  query : req.query = queryOf target

/-- The path starts with a slash or leaves room for one; that of a HEAD request does not start
with one and is not empty, and its target leaves room for the slash of the marker. -/
def KeepsPath (method target : Bytes) : Prop :=
  if method = lit "HEAD" then
    pathOf target ≠ [] ∧ (pathOf target).head? ≠ some 47 ∧ target.length ≤ 198
  else (pathOf target).head? = some 47 ∨ (pathOf target).length ≤ 198

instance (method target : Bytes) : Decidable (KeepsPath method target) :=
  inferInstanceAs (Decidable (if method = lit "HEAD" then _ ∧ _ ≠ _ ∧ _ ≤ _ else _ = _ ∨ _ ≤ _))

/-- What is copied behind the marker is kept when it starts with a slash or leaves room for
one. -/
theorem clean_path_eq_requested_iff (out : HttpRequest) (target : Bytes) :
    (setTarget out target).cleanPath = requestedPath target ↔
      (pathOf target).head? = some 47 ∨ (pathOf target).length ≤ 198 := by
  rw [set_target_clean_path, requestedPath]
  by_cases hslash : pathOf target = [] ∨ (pathOf target).head? = some 47
  · rw [if_neg (by tauto), if_pos hslash]
    refine iff_of_true rfl ?_
    rcases hslash with hnil | hslash
    · right
      rw [hnil]
      exact Nat.zero_le _
    · exact Or.inl hslash
  · obtain ⟨hnil, hhead⟩ := not_or.mp hslash
    rw [if_pos ⟨hnil, hhead⟩, if_neg hslash, or_iff_right hhead]
    constructor
    · intro hsame
      have htake : (pathOf target).take 198 = pathOf target := (List.cons.inj hsame).2
      rw [← htake]
      exact List.length_take_le _ _
    · intro hlength
      rw [List.take_of_length_le hlength]
      rfl

/-- The slash of the marker is the one that the path needs. -/
theorem cons_slash_eq_requested_iff (target : Bytes) :
    47 :: pathOf target = requestedPath target ↔
      pathOf target ≠ [] ∧ (pathOf target).head? ≠ some 47 := by
  rw [requestedPath, ← not_or]
  split
  · rename_i hslash
    refine iff_of_false (fun hsame => ?_) (not_not.mpr hslash)
    have hlength := congrArg List.length hsame
    rw [List.length_cons] at hlength
    omega
  · rename_i hslash
    exact iff_of_true rfl hslash

/-- What is made of the copy of a target with at most 199 bytes. -/
theorem normalised_set_target_iff {raw method target : Bytes} (hlength : target.length ≤ 199) :
    Normalised target (setTarget { empty raw with method := method }
      (targetSlice method (47 :: target))) ↔ KeepsPath method target := by
  generalize hreq : setTarget { empty raw with method := method }
    (targetSlice method (47 :: target)) = req
  have hquery : req.query = queryOf target := by
    rw [← hreq, set_target_query rfl, query_of_target_slice]
  obtain rfl : req.method = method := by rw [← hreq]; rfl
  unfold KeepsPath
  split
  · rename_i hhead
    have hslice : targetSlice req.method (47 :: target) = 47 :: target := if_pos hhead
    have hpath : req.cleanPath = 47 :: pathOf target := by
      rw [← hreq, hslice, clean_path_of_head]
    rw [← and_assoc, ← cons_slash_eq_requested_iff]
    constructor
    · intro hkept
      have hfits := hkept.fits
      rw [hslice, List.length_cons] at hfits
      exact ⟨hpath.symm.trans hkept.path, by omega⟩
    · rintro ⟨hsame, hshort⟩
      exact ⟨by rw [hslice, List.length_cons]; omega, hpath.trans hsame, hquery⟩
  · rename_i hhead
    have hslice : targetSlice req.method (47 :: target) = target := if_neg hhead
    rw [hslice] at hreq
    rw [← clean_path_eq_requested_iff { empty raw with method := req.method }, hreq]
    exact ⟨fun hkept => hkept.path,
      fun hsame => ⟨by rw [hslice]; omega, hsame, hquery⟩⟩

/-- Of a target with at most 199 bytes nothing is lost exactly when its path is kept. -/
theorem normalised_iff {raw method target : Bytes} (h : TargetText (cstr raw) method target)
    (hlength : target.length ≤ 199) :
    (∃ req, parse raw = .ok (true, req) ∧ req.method = method ∧ Normalised target req) ↔
      KeepsPath method target := by
  have hparse := parse_of_target_text h
  constructor
  · rintro ⟨req, haccepted, -, hkept⟩
    obtain ⟨-, hresult⟩ := copy_target_eq_ok_iff.mp (hparse.symm.trans haccepted)
    obtain ⟨-, rfl⟩ := Prod.mk.inj hresult
    exact (normalised_set_target_iff hlength).mp hkept
  · intro hkeeps
    have hkept : Normalised target (setTarget { empty raw with method := method }
        (targetSlice method (47 :: target))) := (normalised_set_target_iff hlength).mpr hkeeps
    exact ⟨_, hparse.trans (copy_target_of_fits hkept.fits _), rfl, hkept⟩

/-- A request with a question mark in its parameter. -/
def questionRequest : HttpRequest :=
  ⟨lit "GET /a/b?x=1?2 HTTP/1.1\r\n\r\n", lit "GET", lit "/a/b", lit "x=1?2"⟩

/-- A query with a question mark in it is kept whole. -/
theorem normalised_iff_question : ∃ req, parse questionRequest.raw = .ok (true, req) ∧
    req.method = lit "GET" ∧ Normalised (lit "a/b?x=1?2") req := by
  have htarget : TargetText (cstr questionRequest.raw) questionRequest.method (lit "a/b?x=1?2") :=
    ⟨lit "a/b?x=1?2 HTTP/1.1\r\n\r\n", 9, by decide +kernel, by decide +kernel,
      by decide +kernel, by decide⟩
  exact (normalised_iff htarget (by decide)).mpr (by decide +kernel)

/-- A request for a path of 199 bytes. -/
def longRequest : HttpRequest :=
  ⟨lit "GET /" ++ List.replicate 199 97 ++ lit " HTTP/1.1\r\n\r\n", lit "GET",
    47 :: List.replicate 198 97, []⟩

/-- A HEAD request for the empty path. -/
def headRootRequest : HttpRequest := ⟨lit "HEAD / HTTP/1.1\r\n\r\n", lit "HEAD", lit "/", []⟩

/-- A GET path of 199 bytes loses its last byte, and the empty path of a HEAD request becomes a
slash. -/
theorem not_normalised :
    (parse longRequest.raw = .ok (true, longRequest) ∧
      TargetText (cstr longRequest.raw) (lit "GET") (List.replicate 199 97) ∧
      ¬ Normalised (List.replicate 199 97) longRequest) ∧
    parse headRootRequest.raw = .ok (true, headRootRequest) ∧
      TargetText (cstr headRootRequest.raw) (lit "HEAD") [] ∧ ¬ Normalised [] headRootRequest := by
  refine ⟨⟨by decide +kernel, ?_, fun h => ?_⟩, rfl, ?_, fun h => ?_⟩
  · exact ⟨List.replicate 199 97 ++ lit " HTTP/1.1\r\n\r\n", 199, by decide +kernel,
      by decide +kernel, by decide +kernel, by decide +kernel⟩
  · exact absurd h.path (by decide +kernel)
  · exact ⟨lit " HTTP/1.1\r\n\r\n", 0, by decide +kernel, by decide +kernel, by decide +kernel, rfl⟩
  · exact absurd h.path (by decide +kernel)

end Dvws
