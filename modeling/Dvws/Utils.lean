import Mathlib.Data.List.AList
import Dvws.Base64

/-!
# Text helpers

The functions of `utils.cpp`. They slice with `std::string::substr` at positions they compute, so
each returns in `Except Exn`. All positions of `extract_header_value` and
`extract_query_parameters` lie inside the string; `extract_username_password` skips the six bytes
of `"Basic "` without looking at them, and throws exactly on shorter values.
-/

namespace Dvws

/-- The value of a hexadecimal digit. -/
def hexVal (c : UInt8) : Option Nat :=
  if 48 ≤ c ∧ c ≤ 57 then some (c.toNat - 48)
  else if 97 ≤ c ∧ c ≤ 102 then some (c.toNat - 97 + 10)
  else if 65 ≤ c ∧ c ≤ 70 then some (c.toNat - 65 + 10)
  else none

/-- The number written by leading hexadecimal digits. -/
def hexNumber (digits : Bytes) : Nat :=
  ((digits.map hexVal).takeWhile Option.isSome).foldl (fun n d => 16 * n + d.getD 0) 0

/-- `stream >> std::hex >> value` on a whole text: leading white space is skipped, a sign and
a `0x` are allowed. With nothing but white space `value` keeps its contents; without digits it
becomes zero. -/
def extractHex (text : Bytes) (value : Int) : Int :=
  match text.dropWhile isSpace with
  | [] => value
  | 45 :: rest => -(unsignedHex rest)
  | 43 :: rest => unsignedHex rest
  | rest => unsignedHex rest
where
  /-- The digits after the sign, with or without `0x`. -/
  unsignedHex : Bytes → Int
    | 48 :: 120 :: rest => hexNumber rest
    | 48 :: 88 :: rest => hexNumber rest
    | rest => hexNumber rest

/-- `static_cast<char>` of an `int`. -/
def charOfInt (value : Int) : UInt8 := UInt8.ofNat (value % 256).toNat

/-- The loop of `url_decode` from position `i` on. The local `value` of the iteration at `i` holds
`uninit i` before the extraction. -/
def urlDecodeFrom (uninit : Nat → Int) : Nat → Bytes → Bytes
  | _, [] => []
  | i, 37 :: hi :: lo :: rest =>
      charOfInt (extractHex [hi, lo] (uninit i)) :: urlDecodeFrom uninit (i + 3) rest
  | i, 43 :: rest => 32 :: urlDecodeFrom uninit (i + 1) rest
  | i, c :: rest => c :: urlDecodeFrom uninit (i + 1) rest

/-- `url_decode`. -/
def urlDecode (uninit : Nat → Int) (str : Bytes) : Bytes := urlDecodeFrom uninit 0 str

/-- The byte ends a parameter: NUL, LF or CR. -/
def endsParameter (c : UInt8) : Bool := c = 0 || c = 10 || c = 13

/-- The loop of `estimate_decoded_length` with `skip` bytes to pass over unseen. -/
def estimateFrom : Nat → Bytes → Nat
  | _, [] => 0
  | skip + 1, _ :: rest => estimateFrom skip rest
  | 0, c :: rest =>
      if endsParameter c then 0
      else if c = 37 then 1 + estimateFrom 2 rest
      else 1 + estimateFrom 0 rest

/-- `estimate_decoded_length`. The two bytes after a `%` are not looked at; behind the end of the
buffer there is a NUL. -/
def estimateDecodedLength (s : Bytes) : Nat := estimateFrom 0 s

/-- The position of the first byte from `pos` on that is not white space. -/
def skipSpace (s : Bytes) (pos : Nat) : Nat := pos + ((s.drop pos).takeWhile isSpace).length

/-- `extract_header_value`. -/
def extractHeaderValue (request headerName : Bytes) : Except Exn Bytes :=
  match Text.find headerName request with
  | none => .ok []
  | some headerPos =>
      let valuePos := skipSpace request (headerPos + headerName.length)
      let endOfLine := (findFrom request (lit "\r\n") valuePos).or
        (findFrom request (lit "\n") valuePos)
      substr request valuePos (endOfLine.map (· - valuePos))

/-- `HttpRequest::header` on the text of a request. -/
def header (request name : Bytes) : Except Exn Bytes := extractHeaderValue request (name ++ lit ":")

/-- `std::map<std::string, std::string>`. -/
abbrev Params := AList fun _ : Bytes => Bytes

/-- `params[key]` on a local map: a missing key reads as the empty string. -/
def Params.subscript (params : Params) (key : Bytes) : Bytes := (params.lookup key).getD []

/-- The pairs of the map in the order of its iteration. -/
def Params.inOrder (params : Params) : List (Bytes × Bytes) :=
  (params.entries.map fun entry => (entry.1, entry.2)).mergeSort fun a b => decide (a.1 ≤ b.1)

/-- The pieces that `std::getline` with the delimiter `&` reads: none for what follows the last
delimiter when that is empty. -/
def ampersandPieces (s : Bytes) : List Bytes :=
  let pieces := s.splitOn 38
  if pieces.getLast? = some [] then pieces.dropLast else pieces

/-- The loop of `extract_query_parameters` over the pieces. -/
def insertPairs : List Bytes → Params → Except Exn Params
  | [], params => .ok params
  | pair :: pairs, params =>
      match Text.find (lit "=") pair with
      | none => insertPairs pairs params
      | some eqPos => do
          let key ← substr pair 0 (some eqPos)
          let value ← substr pair (eqPos + 1) none
          insertPairs pairs (params.insert key value)

/-- `extract_query_parameters`. -/
def extractQueryParameters (request : Bytes) : Except Exn Params :=
  match Text.find (lit " ") request with
  | none => .ok ∅
  | some start =>
      match findFrom request (lit " ") (start + 1) with
      | none => .ok ∅
      | some stop => do
          let pathWithQuery ← substr request (start + 1) (some (stop - start - 1))
          match Text.find (lit "?") pathWithQuery with
          | none => .ok ∅
          | some queryPos => do
              let queryString ← substr pathWithQuery (queryPos + 1) none
              insertPairs (ampersandPieces queryString) ∅

/-- `extract_username_password`: the user name and the password, or `none` for `false`. -/
def extractUsernamePassword (malloc : Nat → Bool) (authorizationHeader : Bytes) :
    Except Exn (Option (Bytes × Bytes)) := do
  let encodedCredentials ← substr authorizationHeader 6 none
  match base64Decode malloc encodedCredentials with
  | none => .ok none
  | some decoded =>
      if decoded.length = 0 then .ok none
      else match Text.find (lit ":") (cstr decoded) with
        | none => .ok none
        | some colon => .ok (some ((cstr decoded).take colon, (cstr decoded).drop (colon + 1)))

/-- The credentials that both users of the `Authorization` value extract: an empty value, which
stands for a missing header, has none. -/
def suppliedCredentials (malloc : Nat → Bool) (auth : Bytes) :
    Except Exn (Option (Bytes × Bytes)) :=
  if auth = [] then .ok none else extractUsernamePassword malloc auth

/-- The skipped white space ends inside the string. -/
theorem skip_space_le {s : Bytes} {pos : Nat} (h : pos ≤ s.length) :
    skipSpace s pos ≤ s.length := by
  have hrun : ((s.drop pos).takeWhile isSpace).length ≤ (s.drop pos).length :=
    (List.takeWhile_sublist _).length_le
  rw [List.length_drop] at hrun
  unfold skipSpace
  omega

/-- A header lookup never throws. -/
theorem extract_header_value_returns (request headerName : Bytes) :
    ∃ value, extractHeaderValue request headerName = .ok value := by
  unfold extractHeaderValue
  cases hpos : Text.find headerName request with
  | none => exact ⟨[], rfl⟩
  | some headerPos =>
      have hbound := Text.find_add_length_le hpos
      exact ⟨_, substr_of_le (skip_space_le hbound) _⟩

/-- The pairs of a query are stored without a throw. -/
theorem insert_pairs_returns (pairs : List Bytes) (params : Params) :
    ∃ result, insertPairs pairs params = .ok result := by
  induction pairs generalizing params with
  | nil => exact ⟨params, rfl⟩
  | cons pair pairs ih =>
      cases hpos : Text.find (lit "=") pair with
      | none =>
          simp only [insertPairs, hpos]
          exact ih params
      | some eqPos =>
          have hbound := Text.find_add_length_le hpos
          have hle : eqPos + 1 ≤ pair.length := hbound
          simp only [insertPairs, hpos, substr_of_le (Nat.zero_le _), substr_of_le hle, ok_bind]
          exact ih _

/-- Query extraction never throws. -/
theorem extract_query_parameters_returns (request : Bytes) :
    ∃ params, extractQueryParameters request = .ok params := by
  unfold extractQueryParameters
  cases hstart : Text.find (lit " ") request with
  | none => exact ⟨∅, rfl⟩
  | some start =>
      have hle : start + 1 ≤ request.length := Text.find_add_length_le hstart
      dsimp only
      cases hstop : findFrom request (lit " ") (start + 1) with
      | none => exact ⟨∅, rfl⟩
      | some stop =>
          simp only [substr_of_le hle, ok_bind]
          cases hquery : Text.find (lit "?")
              ((request.drop (start + 1)).take (stop - start - 1)) with
          | none => exact ⟨∅, rfl⟩
          | some queryPos =>
              have hqueryLe : queryPos + 1 ≤
                  ((request.drop (start + 1)).take (stop - start - 1)).length :=
                Text.find_add_length_le hquery
              simp only [substr_of_le hqueryLe, ok_bind]
              exact insert_pairs_returns _ _

/-- Credentials are extracted without a throw from values of at least six bytes. -/
theorem extract_username_password_returns (malloc : Nat → Bool) {value : Bytes}
    (h : 6 ≤ value.length) :
    ∃ credentials, extractUsernamePassword malloc value = .ok credentials := by
  unfold extractUsernamePassword
  simp only [substr_of_le h, ok_bind]
  cases base64Decode malloc (value.drop 6) with
  | none => exact ⟨none, rfl⟩
  | some decoded =>
      dsimp only
      split
      · exact ⟨none, rfl⟩
      · cases Text.find (lit ":") (cstr decoded) with
        | none => exact ⟨none, rfl⟩
        | some colon => exact ⟨_, rfl⟩

/-- From shorter values the extraction throws. -/
theorem extract_username_password_throws (malloc : Nat → Bool) {value : Bytes}
    (h : value.length < 6) : extractUsernamePassword malloc value = .error .outOfRange := by
  simp [extractUsernamePassword, substr, h, bind, Except.bind]

/-- An `Authorization` value that is too short to hold `"Basic "` and is not empty. -/
def Truncated (auth : Bytes) : Prop := 1 ≤ auth.length ∧ auth.length < 6

instance (auth : Bytes) : Decidable (Truncated auth) := inferInstanceAs (Decidable (_ ∧ _))

/-- The credentials of a value that is not truncated are extracted without a throw. -/
theorem supplied_credentials_returns (malloc : Nat → Bool) {auth : Bytes} (h : ¬ Truncated auth) :
    ∃ credentials, suppliedCredentials malloc auth = .ok credentials := by
  unfold suppliedCredentials
  split
  · exact ⟨none, rfl⟩
  · rename_i hne
    have hpos : 1 ≤ auth.length := List.length_pos_iff.mpr hne
    exact extract_username_password_returns malloc (by unfold Truncated at h; omega)

/-- A truncated value throws. -/
theorem supplied_credentials_throws (malloc : Nat → Bool) {auth : Bytes} (h : Truncated auth) :
    suppliedCredentials malloc auth = .error .outOfRange := by
  have hne : auth ≠ [] := List.length_pos_iff.mp h.1
  rw [suppliedCredentials, if_neg hne]
  exact extract_username_password_throws malloc h.2

end Dvws
