import Dvws.Utils

/-!
# Malformed escapes

`url_decode` extracts a number from the two characters behind a `%` into a local variable that it
does not initialise. White space alone leaves the variable as it was, so what the function returns
then is what the stack held. Any other two characters determine the byte
(`url_decode_determined_iff`).
-/

namespace Dvws

/-- The pairs of characters that `url_decode` takes for the digits of an escape: those behind each
`%` that the loop comes to with two more characters behind it. -/
def escapes : Bytes → List (UInt8 × UInt8)
  | [] => []
  | 37 :: hi :: lo :: rest => (hi, lo) :: escapes rest
  | _ :: rest => escapes rest

/-- Both characters are white space. -/
def isBlank (pair : UInt8 × UInt8) : Bool := isSpace pair.1 && isSpace pair.2

/-- White space leaves the variable as it was. -/
theorem extract_hex_blank {hi lo : UInt8} (h : isBlank (hi, lo) = true) (value : Int) :
    extractHex [hi, lo] value = value := by
  obtain ⟨hhi, hlo⟩ := by simpa only [isBlank, Bool.and_eq_true] using h
  rw [extractHex, List.dropWhile_cons_of_pos hhi, List.dropWhile_cons_of_pos hlo,
    List.dropWhile_nil]

/-- Two characters that are not blank determine what is extracted. -/
theorem extract_hex_determined {hi lo : UInt8} (h : isBlank (hi, lo) = false)
    (value value' : Int) : extractHex [hi, lo] value = extractHex [hi, lo] value' := by
  have hne : [hi, lo].dropWhile isSpace ≠ [] := by
    rw [Ne, List.dropWhile_eq_nil_iff]
    intro hall
    have hhi : isSpace hi = true := hall hi (by simp)
    have hlo : isSpace lo = true := hall lo (by simp)
    simp [isBlank, hhi, hlo] at h
  unfold extractHex
  split
  · next hnil => exact absurd hnil hne
  · rfl
  · rfl
  · rfl

/-- Without blank escapes the loop does not depend on what the variable held. -/
theorem url_decode_from_determined {str : Bytes} (h : ∀ pair ∈ escapes str, isBlank pair = false)
    (uninit uninit' : Nat → Int) (i : Nat) :
    urlDecodeFrom uninit i str = urlDecodeFrom uninit' i str := by
  fun_induction urlDecodeFrom uninit i str with
  | case1 => rfl
  | case2 i hi lo rest ih =>
      rw [escapes, List.forall_mem_cons] at h
      rw [urlDecodeFrom, ih h.2, extract_hex_determined h.1]
  | case3 i rest ih =>
      rw [urlDecodeFrom, ih (by simpa [escapes] using h)]
  | case4 i c rest hescape hplus ih =>
      rw [urlDecodeFrom.eq_4 _ _ _ _ hescape hplus, ih (by simpa [escapes] using h)]

/-- A character that starts no escape is decoded on its own. -/
theorem url_decode_from_cons {c : UInt8} {rest : Bytes}
    (h : ∀ hi lo tail, c = 37 → rest = hi :: lo :: tail → False) (i : Nat) :
    ∃ b, ∀ uninit, urlDecodeFrom uninit i (c :: rest) = b :: urlDecodeFrom uninit (i + 1) rest := by
  by_cases hplus : c = 43
  · refine ⟨32, fun uninit => ?_⟩
    rw [hplus, urlDecodeFrom]
  · exact ⟨c, fun uninit => urlDecodeFrom.eq_4 uninit i c rest h hplus⟩

/-- A loop that does not depend on what the variable held has met no blank escape. -/
theorem blank_free_of_determined {str : Bytes} {i : Nat}
    (h : urlDecodeFrom (fun _ => 0) i str = urlDecodeFrom (fun _ => 1) i str) :
    ∀ pair ∈ escapes str, isBlank pair = false := by
  fun_induction escapes str generalizing i with
  | case1 => simp
  | case2 hi lo rest ih =>
      rw [urlDecodeFrom, urlDecodeFrom, List.cons.injEq] at h
      refine List.forall_mem_cons.mpr ⟨?_, ih h.2⟩
      by_contra hblank
      rw [Bool.not_eq_false] at hblank
      rw [extract_hex_blank hblank, extract_hex_blank hblank] at h
      exact absurd h.1 (by decide)
  | case3 c rest hescape ih =>
      obtain ⟨b, hb⟩ := url_decode_from_cons hescape i
      rw [hb, hb, List.cons.injEq] at h
      exact ih h.2

/-- Two runs of `url_decode` return the same string, whatever the variable holds in each iteration
of either, exactly when the string has no blank escape. -/
theorem url_decode_determined_iff (str : Bytes) :
    (∀ uninit uninit', urlDecode uninit str = urlDecode uninit' str) ↔
      ∀ pair ∈ escapes str, ¬ (isSpace pair.1 = true ∧ isSpace pair.2 = true) := by
  have hblank : (∀ pair ∈ escapes str, ¬ (isSpace pair.1 = true ∧ isSpace pair.2 = true)) ↔
      ∀ pair ∈ escapes str, isBlank pair = false := by
    simp [isBlank]
  rw [hblank]
  constructor
  · intro h
    exact blank_free_of_determined (h (fun _ => 0) (fun _ => 1))
  · intro h uninit uninit'
    exact url_decode_from_determined h uninit uninit' 0

/-- What is returned for a blank escape is what the variable held. -/
theorem url_decode_not_determined :
    urlDecode (fun _ => 65) (lit "%\t\t") = lit "A" ∧
      ¬ ∀ uninit uninit', urlDecode uninit (lit "%\t\t") = urlDecode uninit' (lit "%\t\t") := by
  refine ⟨by decide, fun h => ?_⟩
  exact absurd (h (fun _ => 0) (fun _ => 1)) (by decide)

end Dvws
