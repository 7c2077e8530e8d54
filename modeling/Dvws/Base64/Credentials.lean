import Dvws.Base64.Inverse
import Dvws.Utils

/-!
# Credentials in memory

`extract_username_password` works in the block that the decoder returns: it stores a NUL in the
cell behind the result, another over the first colon, and reads two C strings.
`credentials_in_memory_eq` shows that this stays inside the block, and reads the same credentials
as `extractUsernamePassword`. The credentials that were encoded are read back
(`credentials_round_trip`).
-/

namespace Dvws.Base64

open Memory Text

/-- A C string in memory: the values up to a zero. -/
def readString : Block UInt8 → Except Fault Bytes
  | [] => .error .outOfBounds
  | none :: _ => .error .uninitialised
  | some c :: rest =>
      if c = 0 then pure []
      else do
        let tail ← readString rest
        pure (c :: tail)

/-- `extract_username_password` behind its `substr`: the user name and the password, or `none` for
`false`. -/
def credentialsInMemory (malloc : Nat → Bool) (encodedCredentials : Bytes) :
    Except Fault (Option (Bytes × Bytes)) := do
  let decoded ← decodeInMemory malloc encodedCredentials
  match decoded with
  | none => pure none
  | some (block, decodeLength) =>
      if decodeLength = 0 then pure none
      else do
        let block ← store block decodeLength 0
        let text ← readString block
        match find (lit ":") text with
        | none => pure none
        | some colon => do
            let block ← store block colon 0
            let username ← readString block
            let password ← readString (block.drop (colon + 1))
            pure (some (username, password))

/-- A C string ends at the zero behind the values, or at the first among them. -/
theorem read_string_filled (values : Bytes) (rest : Block UInt8) :
    readString (filled values ++ some 0 :: rest) = .ok (cstr values) := by
  induction values with
  | nil => rfl
  | cons c values ih =>
      show readString (some c :: (filled values ++ some 0 :: rest)) = _
      rw [readString, ih, bind_fault]
      by_cases hc : c = 0
      · rw [if_pos hc, hc]
        rfl
      · rw [if_neg hc]
        unfold cstr
        rw [List.takeWhile_cons_of_pos (by simpa using hc)]
        rfl

/-- The credentials that `extract_username_password` finds in a result. -/
def credentialsOf (decoded : Bytes) : Option (Bytes × Bytes) :=
  if decoded.length = 0 then none
  else (find (lit ":") (cstr decoded)).map fun colon =>
    ((cstr decoded).take colon, (cstr decoded).drop (colon + 1))

/-- A result that is read has a first colon, with no NUL before it. -/
theorem exists_split_of_find {decoded : Bytes} {colon : Nat}
    (h : find (lit ":") (cstr decoded) = some colon) :
    ∃ user rest, decoded = user ++ 58 :: rest ∧ user.length = colon ∧
      ∀ c ∈ user, c ≠ 58 ∧ c ≠ 0 := by
  have hread := eq_append_cons_of_find (c := 58) h
  have hcolon : (58 : UInt8) ∉ (cstr decoded).take colon := not_mem_take_of_find h
  obtain ⟨tail, htail⟩ : cstr decoded <+: decoded := List.takeWhile_prefix _
  refine ⟨(cstr decoded).take colon, (cstr decoded).drop (colon + 1) ++ tail, ?_,
    List.length_take_of_le (find_le_length h), fun c hc => ⟨?_, ?_⟩⟩
  · rw [← List.cons_append, ← List.append_assoc, ← hread, htail]
  · rintro rfl
    exact hcolon hc
  · rintro rfl
    exact zero_not_mem_cstr decoded (List.mem_of_mem_take hc)

/-- The credentials are what stands before and behind the first colon, up to a NUL. -/
theorem credentials_of_split {user : Bytes} (h : ∀ c ∈ user, c ≠ 58 ∧ c ≠ 0) (rest : Bytes) :
    credentialsOf (user ++ 58 :: rest) = some (user, cstr rest) := by
  have hread : cstr (user ++ 58 :: rest) = user ++ 58 :: cstr rest :=
    cstr_append (fun hmem => (h 0 hmem).2 rfl) (58 :: rest)
  have hcolon : find (lit ":") (user ++ 58 :: cstr rest) = some user.length :=
    find_singleton_append fun hmem => (h 58 hmem).1 rfl
  have hbehind : (user ++ 58 :: cstr rest).drop (user.length + 1) = cstr rest :=
    List.drop_length_add_append 1
  have hne : (user ++ 58 :: rest).length ≠ 0 := by simp
  rw [credentialsOf, if_neg hne, hread, hcolon, Option.map_some, List.take_left, hbehind]

/-- From six bytes on, the credentials of a value are those of the decoder's result. -/
theorem extract_username_password_eq (malloc : Nat → Bool) {value : Bytes} (h : 6 ≤ value.length) :
    extractUsernamePassword malloc value =
      .ok ((base64Decode malloc (value.drop 6)).bind credentialsOf) := by
  unfold extractUsernamePassword
  simp only [substr_of_le h, ok_bind]
  cases base64Decode malloc (value.drop 6) with
  | none => rfl
  | some decoded =>
      rw [Option.bind_some, credentialsOf]
      dsimp only
      split
      · rfl
      · cases find (lit ":") (cstr decoded) <;> rfl

/-- No store and no load of `extract_username_password` leaves the block of the decoder or meets
a cell that was not written. -/
theorem credentials_in_memory_eq (malloc : Nat → Bool) (encoded : Bytes) :
    credentialsInMemory malloc encoded =
      .ok ((base64Decode malloc encoded).bind credentialsOf) := by
  unfold credentialsInMemory
  rw [decode_in_memory_eq, bind_fault]
  cases base64Decode malloc encoded with
  | none => rfl
  | some decoded =>
      rw [Option.map_some, Option.bind_some, credentialsOf]
      dsimp only
      split
      · rfl
      · have hterminated := store_append (filled decoded) none [] (0 : UInt8)
        rw [filled, List.length_map, ← filled] at hterminated
        show store (filled decoded ++ none :: []) decoded.length 0 >>= _ = _
        rw [hterminated, bind_fault, read_string_filled, bind_fault]
        cases hcolon : find (lit ":") (cstr decoded) with
        | none => rfl
        | some colon =>
            obtain ⟨user, rest, rfl, rfl, huser⟩ := exists_split_of_find hcolon
            have hne : (user ++ 58 :: rest).length ≠ 0 := by simp
            have hfound := credentials_of_split huser rest
            rw [credentialsOf, if_neg hne, hcolon] at hfound
            have hblock : filled (user ++ 58 :: rest) ++ [some (0 : UInt8)] =
                filled user ++ some 58 :: (filled rest ++ [some 0]) := by
              simp [filled]
            have hcut := store_append (filled user) (some 58) (filled rest ++ [some 0]) 0
            have hbehind : (filled user ++ some 0 :: (filled rest ++ [some 0])).drop
                (user.length + 1) = filled rest ++ [some 0] := by
              have hlength : user.length = (filled user).length := by simp [filled]
              rw [hlength]
              exact List.drop_length_add_append 1
            rw [filled, List.length_map, ← filled] at hcut
            dsimp only
            rw [hfound, hblock, hcut, bind_fault, read_string_filled, bind_fault, hbehind,
              read_string_filled, bind_fault, cstr_of_not_mem fun hmem => (huser 0 hmem).2 rfl]
            rfl

/-- The credentials that are encoded are the credentials that are extracted, and no access to
memory is out of bounds. -/
theorem credentials_round_trip {malloc : Nat → Bool} {user password : Bytes}
    (huser : ∀ c ∈ user, c ≠ 58 ∧ c ≠ 0) (hpassword : 0 ∉ password)
    (hencode : malloc (4 * (((user ++ 58 :: password).length + 2) / 3)) = true)
    (hdecode : malloc ((user ++ 58 :: password).length + 1) = true) :
    ∃ encoded, base64Encode malloc (user ++ 58 :: password) = .ok (some (filled encoded)) ∧
      extractUsernamePassword malloc (lit "Basic " ++ encoded) = .ok (some (user, password)) ∧
      credentialsInMemory malloc encoded = .ok (some (user, password)) := by
  have hspells := spells_spelling (user ++ 58 :: password)
  have hresult : (base64Decode malloc (spelling (user ++ 58 :: password))).bind credentialsOf =
      some (user, password) := by
    rw [decode_of_spells hspells hdecode, Option.bind_some, credentials_of_split huser,
      cstr_of_not_mem hpassword]
  have hlong : 6 ≤ (lit "Basic " ++ spelling (user ++ 58 :: password)).length := by
    rw [List.length_append]
    exact Nat.le_add_right 6 _
  have hdrop : (lit "Basic " ++ spelling (user ++ 58 :: password)).drop 6 =
      spelling (user ++ 58 :: password) := rfl
  refine ⟨spelling (user ++ 58 :: password), base64_encode_eq hencode, ?_, ?_⟩
  · rw [extract_username_password_eq malloc hlong, hdrop, hresult]
  · rw [credentials_in_memory_eq, hresult]

/-- A password with a colon in it is read back whole. -/
theorem credentials_round_trip_colon :
    ∃ encoded, base64Encode (fun _ => true) (lit "me:a:b") = .ok (some (filled encoded)) ∧
      extractUsernamePassword (fun _ => true) (lit "Basic " ++ encoded) =
        .ok (some (lit "me", lit "a:b")) ∧
      credentialsInMemory (fun _ => true) encoded = .ok (some (lit "me", lit "a:b")) :=
  @credentials_round_trip (fun _ => true) (lit "me") (lit "a:b") (forall_mem_of_all (by decide))
    (by decide) rfl rfl

end Dvws.Base64
