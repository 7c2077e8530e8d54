import Dvws.Base64.Credentials
import Dvws.Router.Routed

/-!
# Which credentials are admitted

`require_basic_auth` passes over six bytes of the `Authorization` value without looking at them,
and compares what the decoder makes of the rest up to its first NUL. It admits the texts of the
administrator's credentials behind any six bytes, and texts that go on behind an `A` or an `=`
where the administrator's have their padding (`IsAlias`).
-/

namespace Dvws

open Base64 Effect Text

/-- The administrator's credentials. -/
def adminCredentials : Bytes := lit "admin:admin"

/-- The value is `Basic` with a Base64 text of the administrator's credentials. -/
def IsAdministrator (auth : Bytes) : Prop :=
  ∃ s, auth = lit "Basic " ++ s ∧ Spells s adminCredentials

/-- The value is not, but is admitted: it has another scheme, or its text writes a NUL behind the
credentials. -/
def IsAlias (auth : Bytes) : Prop :=
  (¬ lit "Basic " <+: auth ∧ ∃ c ∈ lit "4567", auth.drop 6 = lit "YWRtaW46YWRtaW" ++ [c, 61]) ∨
    ∃ d rest, auth.drop 6 = lit "YWRtaW46YWRtaW4" ++ d :: rest ∧ rest.length % 4 = 0 ∧
      (d = 65 ∨ d = 61 ∧ rest ≠ [])

/-! ## The values of characters -/

/-- A character has a value of six bits, or the value `-1`. -/
theorem sextet_cases (c : UInt8) : sextet c < 64 ∨ sextet c = 2 ^ 32 - 1 := by
  by_cases hc : c = 61
  · left
    rw [hc]
    decide
  · rw [sextet, if_neg hc]
    by_cases hdigit : IsDigit c
    · exact Or.inl (is_digit_iff.mp hdigit)
    · exact Or.inr (decoding_table_of_not_digit hdigit)

/-- A positive value of six bits has one character. -/
theorem eq_of_sextet {c : UInt8} {i : Nat} (h : sextet c = i) (hpos : 0 < i) (hi : i < 64) :
    c = encodingTable.getD i 0 := by
  by_cases hc : c = 61
  · rw [hc] at h
    rw [← h] at hpos
    exact absurd hpos (by decide)
  · rw [sextet, if_neg hc] at h
    rw [List.getD_eq_getElem?_getD, (decoding_table_eq_iff hi).mp h, Option.getD_some]

/-- Zero has two: its own, and the padding. -/
theorem eq_of_sextet_zero {c : UInt8} (h : sextet c = 0) : c = 65 ∨ c = 61 := by
  by_cases hc : c = 61
  · exact Or.inr hc
  · rw [sextet, if_neg hc] at h
    have hfirst := (decoding_table_eq_iff (by decide)).mp h
    exact Or.inl (Option.some.inj hfirst.symm)

/-- The value of a group is that of its three bytes. -/
theorem value_of_decode_quad {a b c d x y z : UInt8} (h : decodeQuad a b c d = [x, y, z]) :
    (sextet a * 2 ^ 18 + sextet b * 2 ^ 12 + sextet c * 2 ^ 6 + sextet d) % 2 ^ 24 =
      x.toNat * 2 ^ 16 + y.toNat * 2 ^ 8 + z.toNat := by
  have hbyte : ∀ {n : Nat} {e : UInt8}, UInt8.ofNat (n % 256) = e → n % 256 = e.toNat := by
    intro n e he
    rw [← he, UInt8.toNat_ofNat', Nat.mod_mod_of_dvd _ (by decide)]
  unfold decodeQuad at h
  dsimp only at h
  obtain ⟨hx, hy, hz, -⟩ := by simpa only [List.cons.injEq] using h
  have hfirst := hbyte hx
  have hsecond := hbyte hy
  have hthird := hbyte hz
  omega

/-- The characters of a group whose values are all less than `63` follow from its bytes: `-1` in
place of one would leave the one after it the value `63`. -/
theorem sextets_of_value {p q r t a b c d : Nat}
    (ha : a < 64 ∨ a = 2 ^ 32 - 1) (hb : b < 64 ∨ b = 2 ^ 32 - 1) (hc : c < 64 ∨ c = 2 ^ 32 - 1)
    (hd : d < 64 ∨ d = 2 ^ 32 - 1) (hp : p < 63) (hq : q < 63) (hr : r < 63) (ht : t < 63)
    (h : (a * 2 ^ 18 + b * 2 ^ 12 + c * 2 ^ 6 + d) % 2 ^ 24 =
      p * 2 ^ 18 + q * 2 ^ 12 + r * 2 ^ 6 + t) : a = p ∧ b = q ∧ c = r ∧ d = t := by
  obtain rfl : d = t := by omega
  obtain rfl : c = r := by omega
  obtain rfl : b = q := by omega
  omega

/-- Three bytes that have the value of four inner characters of the alphabet are decoded from these
characters only. -/
theorem group_of_bytes {a b c d x y z : UInt8} {p q r t : Nat}
    (h : decodeQuad a b c d = [x, y, z])
    (hvalue : x.toNat * 2 ^ 16 + y.toNat * 2 ^ 8 + z.toNat =
      p * 2 ^ 18 + q * 2 ^ 12 + r * 2 ^ 6 + t)
    (hp : 0 < p ∧ p < 63) (hq : 0 < q ∧ q < 63) (hr : 0 < r ∧ r < 63) (ht : 0 < t ∧ t < 63) :
    a = encodingTable.getD p 0 ∧ b = encodingTable.getD q 0 ∧ c = encodingTable.getD r 0 ∧
      d = encodingTable.getD t 0 := by
  have hsum := (value_of_decode_quad h).trans hvalue
  obtain ⟨ha, hb, hc, hd⟩ := sextets_of_value (sextet_cases a) (sextet_cases b) (sextet_cases c)
    (sextet_cases d) hp.2 hq.2 hr.2 ht.2 hsum
  exact ⟨eq_of_sextet ha hp.1 (by omega), eq_of_sextet hb hq.1 (by omega),
    eq_of_sextet hc hr.1 (by omega), eq_of_sextet hd ht.1 (by omega)⟩

/-- The last group of the credentials leaves its fourth character open when a third byte is not
asked for. -/
theorem last_group_of_bytes {a b c d z : UInt8} (h : decodeQuad a b c d = [105, 110, z]) :
    a = 97 ∧ b = 87 ∧ c ≠ 61 ∧ (z = 0 → c = 52 ∧ (d = 65 ∨ d = 61)) ∧
      (d = 61 → c ∈ lit "4567") := by
  have hsum := value_of_decode_quad h
  have hz := z.toNat_lt
  have ha := sextet_cases a
  have hb := sextet_cases b
  have hc := sextet_cases c
  have hd := sextet_cases d
  have hfirst : (105 : UInt8).toNat = 105 := rfl
  have hsecond : (110 : UInt8).toNat = 110 := rfl
  rw [hfirst, hsecond] at hsum
  have hb' : sextet b = 22 := by omega
  have ha' : sextet a = 26 := by omega
  refine ⟨?_, ?_, ?_, fun hzero => ?_, fun hpadding => ?_⟩
  · exact eq_of_sextet ha' (by decide) (by decide)
  · exact eq_of_sextet hb' (by decide) (by decide)
  · rintro rfl
    have hc' : sextet 61 = 0 := rfl
    omega
  · rw [hzero, UInt8.toNat_zero] at hsum
    have hd' : sextet d = 0 := by omega
    have hc' : sextet c = 56 := by omega
    exact ⟨eq_of_sextet hc' (by decide) (by decide), eq_of_sextet_zero hd'⟩
  · have hd' : sextet d = 0 := by
      rw [hpadding]
      rfl
    have hrange : sextet c = 56 ∨ sextet c = 57 ∨ sextet c = 58 ∨ sextet c = 59 := by omega
    obtain h | h | h | h := hrange <;>
      exact eq_of_sextet h (by decide) (by decide) ▸ by decide

/-! ## The texts that are admitted -/

/-- The text writes the credentials and nothing else, or a NUL behind them. -/
def AdminText (s : Bytes) : Prop :=
  ∃ c d rest, s = lit "YWRtaW46YWRtaW" ++ c :: d :: rest ∧
    (rest = [] ∧ d = 61 ∧ c ∈ lit "4567" ∨ c = 52 ∧ (d = 65 ∨ d = 61))

/-- A buffer goes on behind its C string with a NUL, if at all. -/
theorem eq_zero_of_cstr_append {s rest : Bytes} {c : UInt8} (h : cstr (s ++ c :: rest) = s) :
    c = 0 := by
  by_contra hc
  have hs : 0 ∉ s := h ▸ zero_not_mem_cstr _
  have hlong : cstr (s ++ c :: rest) = s ++ c :: cstr rest := by
    rw [cstr_append hs]
    unfold cstr
    rw [List.takeWhile_cons_of_pos (by simpa using hc)]
  have hlength := congrArg List.length (h.symm.trans hlong)
  simp at hlength

/-- Three bytes are those of the first group. -/
theorem exists_group {s bytes : Bytes} {x y z : UInt8} (h : decodeQuads s = x :: y :: z :: bytes) :
    ∃ a b c d rest, s = a :: b :: c :: d :: rest ∧ decodeQuad a b c d = [x, y, z] ∧
      decodeQuads rest = bytes := by
  match s with
  | a :: b :: c :: d :: rest =>
      have hthree : (decodeQuad a b c d).length = [x, y, z].length := by simp [decodeQuad]
      obtain ⟨hquad, hrest⟩ :=
        List.append_inj ((decode_quads_cons a b c d rest).symm.trans h) hthree
      exact ⟨a, b, c, d, rest, rfl, hquad, hrest⟩
  | [_, _, _] | [_, _] | [_] | [] => simp [decodeQuads] at h

/-- A text that is decoded to the credentials and more starts with their first fourteen characters,
and its fourth group gives their last two bytes and the next. -/
theorem groups_of_credentials {s bytes : Bytes} {z : UInt8}
    (h : decodeQuads s = adminCredentials ++ z :: bytes) :
    ∃ c d rest, s = lit "YWRtaW46YWRtaW" ++ c :: d :: rest ∧
      decodeQuad 97 87 c d = [105, 110, z] := by
  have hbytes : decodeQuads s =
      97 :: 100 :: 109 :: 105 :: 110 :: 58 :: 97 :: 100 :: 109 :: 105 :: 110 :: z :: bytes := h
  obtain ⟨a₁, b₁, c₁, d₁, s₁, rfl, hq₁, h₁⟩ := exists_group hbytes
  obtain ⟨a₂, b₂, c₂, d₂, s₂, rfl, hq₂, h₂⟩ := exists_group h₁
  obtain ⟨a₃, b₃, c₃, d₃, s₃, rfl, hq₃, h₃⟩ := exists_group h₂
  obtain ⟨a, b, c, d, rest, rfl, hq, -⟩ := exists_group h₃
  obtain ⟨rfl, rfl, rfl, rfl⟩ := group_of_bytes (p := 24) (q := 22) (r := 17) (t := 45) hq₁
    (by decide) (by decide) (by decide) (by decide) (by decide)
  obtain ⟨rfl, rfl, rfl, rfl⟩ := group_of_bytes (p := 26) (q := 22) (r := 56) (t := 58) hq₂
    (by decide) (by decide) (by decide) (by decide) (by decide)
  obtain ⟨rfl, rfl, rfl, rfl⟩ := group_of_bytes (p := 24) (q := 22) (r := 17) (t := 45) hq₃
    (by decide) (by decide) (by decide) (by decide) (by decide)
  obtain ⟨rfl, rfl, -⟩ := last_group_of_bytes hq
  exact ⟨c, d, rest, rfl, hq⟩

/-- What stands behind four groups comes in groups. -/
theorem length_rest_of_groups {c d : UInt8} {rest : Bytes}
    (h : (lit "YWRtaW46YWRtaW" ++ c :: d :: rest).length % 4 = 0) : rest.length % 4 = 0 := by
  rw [List.length_append] at h
  change (14 + (rest.length + 2)) % 4 = 0 at h
  omega

/-- The length of the result of such a text: eleven bytes exactly when it is one group longer than
its first twelve characters and ends in `=`. -/
theorem decoded_length_eq_iff {c d : UInt8} {rest : Bytes} (hgroups : rest.length % 4 = 0)
    (hc : c ≠ 61) :
    11 ≤ decodedLength (lit "YWRtaW46YWRtaW" ++ c :: d :: rest) ∧
      (decodedLength (lit "YWRtaW46YWRtaW" ++ c :: d :: rest) = 11 ↔ rest = [] ∧ d = 61) := by
  cases rest with
  | nil =>
      have hlength : decodedLength (lit "YWRtaW46YWRtaW" ++ [c, d]) =
          12 - (if d = 61 then 1 else 0) := by
        show 16 / 4 * 3 - (if some d = some 61 then 1 else 0) -
          (if some c = some 61 then 1 else 0) = _
        have hnot : ¬ some c = some (61 : UInt8) := by simpa using hc
        rw [if_neg hnot]
        simp
      rw [hlength]
      split <;> simp_all
  | cons e rest =>
      have hlength : (lit "YWRtaW46YWRtaW" ++ c :: d :: e :: rest).length = rest.length + 17 := by
        rw [List.length_append, List.length_cons, List.length_cons, List.length_cons]
        exact Nat.add_comm 14 (rest.length + 1 + 1 + 1)
      have hmany : 12 < decodedLength (lit "YWRtaW46YWRtaW" ++ c :: d :: e :: rest) := by
        rw [List.length_cons] at hgroups
        unfold decodedLength
        rw [hlength]
        split <;> split <;> omega
      exact ⟨by omega, iff_of_false (by omega) (by simp)⟩

/-- A text that is read as the administrator's credentials is an `AdminText`. -/
theorem admin_text_of_cstr {s : Bytes} (hgroups : s.length % 4 = 0)
    (h : cstr (decoded s) = adminCredentials) : AdminText s := by
  have hcredentials : adminCredentials.length = 11 := rfl
  have hprefix : adminCredentials <+: decoded s := h ▸ List.takeWhile_prefix _
  obtain ⟨more, hmore⟩ := hprefix.trans (List.take_prefix _ _)
  have hcount := congrArg List.length hmore
  rw [List.length_append, length_decode_quads, hcredentials] at hcount
  obtain ⟨z, bytes, rfl⟩ : ∃ z bytes, more = z :: bytes := by
    refine List.exists_cons_of_ne_nil fun hnil => ?_
    rw [hnil, List.length_nil] at hcount
    omega
  obtain ⟨c, d, rest, rfl, hlast⟩ := groups_of_credentials hmore.symm
  obtain ⟨-, -, hc, hzero, hpadding⟩ := last_group_of_bytes hlast
  obtain ⟨hlong, heleven⟩ := decoded_length_eq_iff (d := d) (length_rest_of_groups hgroups) hc
  refine ⟨c, d, rest, rfl, ?_⟩
  by_cases hlength : decodedLength (lit "YWRtaW46YWRtaW" ++ c :: d :: rest) = 11
  · obtain ⟨rfl, rfl⟩ := heleven.mp hlength
    exact Or.inl ⟨rfl, rfl, hpadding rfl⟩
  · -- the twelfth byte is part of the result, so it is the NUL that ends the string
    right
    obtain ⟨n, hn⟩ : ∃ n, decodedLength (lit "YWRtaW46YWRtaW" ++ c :: d :: rest) = 11 + (n + 1) :=
      ⟨decodedLength (lit "YWRtaW46YWRtaW" ++ c :: d :: rest) - 12, by omega⟩
    have hresult : decoded (lit "YWRtaW46YWRtaW" ++ c :: d :: rest) =
        adminCredentials ++ z :: bytes.take n := by
      rw [decoded, hn, ← hmore, ← hcredentials, List.take_length_add_append, List.take_succ_cons]
    rw [hresult] at h
    exact hzero (eq_zero_of_cstr_append h)

/-- The characters that the last group can end in are no padding. -/
theorem last_characters_ne_padding : ∀ c ∈ lit "4567", c ≠ 61 := forall_mem_of_all (by decide)

/-- With any of four last characters the text is that of the credentials. -/
theorem decoded_last_characters :
    ∀ c ∈ lit "4567", decoded (lit "YWRtaW46YWRtaW" ++ [c, 61]) = adminCredentials :=
  forall_mem_of_all (by decide +kernel)

/-- Every `AdminText` is read as the credentials. -/
theorem cstr_of_admin_text {s : Bytes} (hgroups : s.length % 4 = 0) (h : AdminText s) :
    cstr (decoded s) = adminCredentials := by
  obtain ⟨c, d, rest, rfl, ⟨rfl, rfl, hc⟩ | ⟨rfl, hd⟩⟩ := h
  · rw [decoded_last_characters c hc]
    rfl
  · have hquads : decodeQuads (lit "YWRtaW46YWRtaW" ++ 52 :: d :: rest) =
        adminCredentials ++ 0 :: decodeQuads rest := by
      have hgroup : decodeQuads (lit "YWRtaW46YWRtaW" ++ [52, d]) = adminCredentials ++ [0] := by
        obtain rfl | rfl := hd <;> decide +kernel
      have hsplit : lit "YWRtaW46YWRtaW" ++ 52 :: d :: rest =
          lit "YWRtaW46YWRtaW" ++ [52, d] ++ rest := by
        rw [List.append_assoc]
        rfl
      have hsixteen : (lit "YWRtaW46YWRtaW" ++ [52, d]).length = 16 := rfl
      rw [hsplit, decode_quads_append (by rw [hsixteen]), hgroup, List.append_assoc]
      rfl
    obtain ⟨n, hn⟩ := Nat.exists_eq_add_of_le
      (decoded_length_eq_iff (c := 52) (d := d) (length_rest_of_groups hgroups) (by decide)).1
    have hnul : cstr ((0 :: decodeQuads rest).take n) = [] := by cases n <;> rfl
    have hcredentials : adminCredentials.length = 11 := rfl
    rw [decoded, hn, hquads, ← hcredentials, List.take_length_add_append,
      cstr_append (by decide), hnul, List.append_nil]

/-- The texts that are read as the administrator's credentials are the `AdminText`s. -/
theorem cstr_decoded_iff {s : Bytes} (hgroups : s.length % 4 = 0) :
    cstr (decoded s) = adminCredentials ↔ AdminText s :=
  ⟨admin_text_of_cstr hgroups, cstr_of_admin_text hgroups⟩

/-- The texts that spell the administrator's credentials are those that write nothing else. -/
theorem spells_iff {s : Bytes} : Spells s adminCredentials ↔
    ∃ c ∈ lit "4567", s = lit "YWRtaW46YWRtaW" ++ [c, 61] := by
  constructor
  · intro h
    have hresult : decoded s = adminCredentials := (spells_decoded h.wellFormed).unique h
    have hlength : decodedLength s = 11 := by
      rw [← length_decoded, hresult]
      rfl
    have hread : cstr (decoded s) = adminCredentials := by
      rw [hresult]
      rfl
    have hgroups := h.wellFormed.groups
    obtain ⟨c, d, rest, rfl, hcases⟩ := admin_text_of_cstr hgroups hread
    have hc : c ∈ lit "4567" := by
      obtain ⟨-, -, hc⟩ | ⟨rfl, -⟩ := hcases
      · exact hc
      · decide
    obtain ⟨rfl, rfl⟩ := (decoded_length_eq_iff (length_rest_of_groups hgroups)
      (last_characters_ne_padding c hc)).2.mp hlength
    exact ⟨c, hc, rfl⟩
  · intro h
    obtain ⟨c, hc, rfl⟩ := h
    have hdigits : ∀ e ∈ lit "YWRtaW46YWRtaW" ++ lit "4567", IsDigit e :=
      forall_mem_of_all (by decide +kernel)
    have hbody : ∀ e ∈ lit "YWRtaW46YWRtaW" ++ [c], IsDigit e := by
      intro e he
      refine hdigits e (List.mem_append.mpr ((List.mem_append.mp he).imp_right fun hlast => ?_))
      rwa [List.mem_singleton.mp hlast]
    have hfifteen : (lit "YWRtaW46YWRtaW" ++ [c]).length = 15 := rfl
    have hformed : WellFormed (lit "YWRtaW46YWRtaW" ++ [c] ++ List.replicate 1 61) :=
      well_formed_append hbody (by decide) (by rw [hfifteen])
    rw [List.append_assoc] at hformed
    rw [← decoded_last_characters c hc]
    exact spells_decoded hformed

/-! ## The values that are admitted -/

/-- The credentials that are found are the administrator's when the result is read so. -/
theorem are_valid_iff (result : Bytes) :
    areValid (credentialsOf result) = true ↔ cstr result = adminCredentials := by
  constructor
  · intro h
    unfold credentialsOf at h
    split at h
    · cases h
    · cases hcolon : find (lit ":") (cstr result) with
      | none =>
          rw [hcolon] at h
          cases h
      | some colon =>
          rw [hcolon] at h
          have hvalid : (cstr result).take colon = lit "admin" ∧
              (cstr result).drop (colon + 1) = lit "admin" := by
            simpa [areValid, authenticate] using h
          rw [eq_append_cons_of_find (c := 58) hcolon, hvalid.1, hvalid.2]
          rfl
  · intro h
    have hne : result.length ≠ 0 := by
      intro hzero
      rw [List.length_eq_zero_iff.mp hzero] at h
      exact absurd h (by decide)
    rw [credentialsOf, if_neg hne, h]
    decide

/-- `require_basic_auth` passes exactly the requests that supply valid credentials. -/
theorem passes_iff_supplied {plat : Platform} {req : HttpRequest} {auth : Bytes}
    (hauth : header req.text (lit "Authorization") = .ok auth) :
    PassesBasicAuth plat req ↔ ∃ credentials,
      suppliedCredentials plat.malloc auth = .ok credentials ∧ areValid credentials = true := by
  rw [passes_basic_auth_iff Server.init]
  unfold requireBasicAuth
  rw [hauth, lift_ok_bind]
  cases hsupplied : suppliedCredentials plat.malloc auth with
  | error exn =>
      refine iff_of_false (fun h => ?_) (by simp)
      cases h
  | ok credentials =>
      rw [lift_ok_bind]
      cases hvalid : areValid credentials with
      | true => exact iff_of_true rfl ⟨credentials, rfl, hvalid⟩
      | false =>
          obtain ⟨events, hprompt, -⟩ := prompt_run plat Server.init
          rw [if_neg (by decide), hprompt]
          refine iff_of_false (fun h => ?_) fun h => ?_
          · cases h
          · obtain ⟨credentials', hsame, hvalid'⟩ := h
            rw [Except.ok.injEq] at hsame
            rw [← hsame, hvalid] at hvalid'
            cases hvalid'

/-- A short value has no text of credentials. -/
theorem length_of_admin_text {auth : Bytes} (h : AdminText (auth.drop 6)) : 6 ≤ auth.length := by
  by_contra hshort
  obtain ⟨c, d, rest, htext, -⟩ := h
  rw [List.drop_eq_nil_of_le (by omega)] at htext
  cases htext

/-- The credentials of a value are valid exactly when its text is admitted and can be decoded. -/
theorem passes_iff_admin_text {plat : Platform} {req : HttpRequest} {auth : Bytes}
    (hauth : header req.text (lit "Authorization") = .ok auth) :
    PassesBasicAuth plat req ↔ plat.malloc (decodedLength (auth.drop 6) + 1) = true ∧
      (auth.drop 6).length % 4 = 0 ∧ AdminText (auth.drop 6) := by
  rw [passes_iff_supplied hauth]
  by_cases hlong : 6 ≤ auth.length
  · have hne : auth ≠ [] := by
      rintro rfl
      exact absurd hlong (by decide)
    rw [suppliedCredentials, if_neg hne, extract_username_password_eq _ hlong]
    by_cases hgroups : (auth.drop 6).length % 4 = 0
    · by_cases hmalloc : plat.malloc (decodedLength (auth.drop 6) + 1) = true
      · rw [decode_of_groups hgroups hmalloc, Option.bind_some]
        simp only [Except.ok.injEq, exists_eq_left', are_valid_iff, cstr_decoded_iff hgroups,
          hmalloc, hgroups, true_and]
      · have hnone : base64Decode plat.malloc (auth.drop 6) = none := by
          rw [base64Decode, if_neg (not_not_intro hgroups), if_neg hmalloc]
        rw [hnone]
        exact iff_of_false (by simp [areValid]) fun h => hmalloc h.1
    · have hnone : base64Decode plat.malloc (auth.drop 6) = none := by
        rw [base64Decode, if_pos hgroups]
      rw [hnone]
      exact iff_of_false (by simp [areValid]) fun h => hgroups h.2.1
  · refine iff_of_false (fun h => ?_) fun h => hlong (length_of_admin_text h.2.2)
    obtain ⟨credentials, hsupplied, hvalid⟩ := h
    by_cases hnil : auth = []
    · rw [suppliedCredentials, if_pos hnil, Except.ok.injEq] at hsupplied
      rw [← hsupplied] at hvalid
      cases hvalid
    · rw [suppliedCredentials, if_neg hnil,
        extract_username_password_throws _ (Nat.lt_of_not_le hlong)] at hsupplied
      cases hsupplied

/-- A text of the administrator's credentials, with nothing behind them, is an `AdminText`. -/
theorem admin_text_of_last {s : Bytes} {c : UInt8} (hc : c ∈ lit "4567")
    (h : s = lit "YWRtaW46YWRtaW" ++ [c, 61]) : s.length % 4 = 0 ∧ AdminText s := by
  have hsixteen : (lit "YWRtaW46YWRtaW" ++ [c, 61]).length = 16 := rfl
  subst h
  exact ⟨by rw [hsixteen], c, 61, [], rfl, Or.inl ⟨rfl, rfl, hc⟩⟩

/-- The values whose text is admitted are the right ones and the aliases. -/
theorem admin_text_iff (auth : Bytes) :
    (auth.drop 6).length % 4 = 0 ∧ AdminText (auth.drop 6) ↔
      IsAdministrator auth ∨ IsAlias auth := by
  have hfifteen : lit "YWRtaW46YWRtaW4" = lit "YWRtaW46YWRtaW" ++ [52] := by decide +kernel
  have hlast : ∀ c ∈ lit "4567", auth.drop 6 = lit "YWRtaW46YWRtaW" ++ [c, 61] →
      IsAdministrator auth ∨ IsAlias auth := by
    intro c hc htext
    by_cases hscheme : lit "Basic " <+: auth
    · obtain ⟨s, rfl⟩ := hscheme
      exact Or.inl ⟨s, rfl, spells_iff.mpr ⟨c, hc, htext⟩⟩
    · exact Or.inr (Or.inl ⟨hscheme, c, hc, htext⟩)
  constructor
  · intro h
    obtain ⟨hgroups, c, d, rest, htext, ⟨rfl, rfl, hc⟩ | ⟨rfl, hd⟩⟩ := h
    · exact hlast c hc htext
    · have hrest : rest.length % 4 = 0 := length_rest_of_groups (htext ▸ hgroups)
      have htext' : auth.drop 6 = lit "YWRtaW46YWRtaW4" ++ d :: rest := by
        rw [htext, hfifteen, List.append_assoc]
        rfl
      obtain rfl | rfl := hd
      · exact Or.inr (Or.inr ⟨65, rest, htext', hrest, Or.inl rfl⟩)
      · by_cases hnil : rest = []
        · subst hnil
          exact hlast 52 (by decide) htext
        · exact Or.inr (Or.inr ⟨61, rest, htext', hrest, Or.inr ⟨rfl, hnil⟩⟩)
  · intro h
    obtain ⟨s, rfl, hspells⟩ | ⟨-, c, hc, htext⟩ | ⟨d, rest, htext, hrest, hd⟩ := h
    · obtain ⟨c, hc, htext⟩ := spells_iff.mp hspells
      exact admin_text_of_last hc htext
    · exact admin_text_of_last hc htext
    · rw [hfifteen, List.append_assoc] at htext
      rw [htext]
      refine ⟨?_, 52, d, rest, rfl, Or.inr ⟨rfl, hd.imp_right And.left⟩⟩
      rw [List.length_append]
      show (14 + (rest.length + 1 + 1)) % 4 = 0
      omega

/-- The value of the administrator is no alias of itself. -/
theorem not_alias_of_administrator {auth : Bytes} (h : IsAdministrator auth) : ¬ IsAlias auth := by
  obtain ⟨s, rfl, hspells⟩ := h
  obtain ⟨c, hc, rfl⟩ := spells_iff.mp hspells
  intro halias
  obtain ⟨hscheme, -⟩ | ⟨d, rest, htext, -, hd⟩ := halias
  · exact hscheme (List.prefix_append _ _)
  · have hfifteen : lit "YWRtaW46YWRtaW4" = lit "YWRtaW46YWRtaW" ++ [52] := by decide +kernel
    rw [hfifteen, List.append_assoc] at htext
    have htail := List.append_cancel_left htext
    cases htail
    obtain hd | ⟨-, hnil⟩ := hd
    · cases hd
    · exact hnil rfl

/-- The values are told apart as they should exactly when they are no alias, as long as there is
memory to decode them. -/
theorem admits_administrator_iff {plat : Platform} {req : HttpRequest} {auth : Bytes}
    (hauth : header req.text (lit "Authorization") = .ok auth) :
    (PassesBasicAuth plat req ↔ IsAdministrator auth) ↔
      if plat.malloc (decodedLength (auth.drop 6) + 1) = true then ¬ IsAlias auth
      else ¬ IsAdministrator auth := by
  rw [passes_iff_admin_text hauth, admin_text_iff]
  split
  · next hmalloc =>
    rw [hmalloc]
    constructor
    · intro h halias
      exact not_alias_of_administrator (h.mp ⟨rfl, Or.inr halias⟩) halias
    · intro halias
      exact ⟨fun h => h.2.resolve_right halias, fun h => ⟨rfl, Or.inl h⟩⟩
  · next hmalloc =>
    constructor
    · intro h hadmin
      exact hmalloc (h.mpr hadmin).1
    · intro hadmin
      exact iff_of_false (fun h => hmalloc h.1) hadmin

/-- A request with the administrator's credentials. -/
def adminRequest (scheme text : String) : HttpRequest :=
  ⟨lit "GET /whoami HTTP/1.1\r\nAuthorization: " ++ lit scheme ++ lit text ++ lit "\r\n\r\n",
    lit "GET", lit "/whoami", []⟩

/-- The credentials of the administrator are admitted with the scheme `Basic`. -/
theorem admits_administrator_iff_whoami :
    PassesBasicAuth .bare (adminRequest "Basic " "YWRtaW46YWRtaW4=") ↔
      IsAdministrator (lit "Basic YWRtaW46YWRtaW4=") := by
  refine (admits_administrator_iff (by decide +kernel)).mpr ?_
  have hmalloc : Platform.bare.malloc
      (decodedLength ((lit "Basic YWRtaW46YWRtaW4=").drop 6) + 1) = true := rfl
  rw [if_pos hmalloc]
  exact not_alias_of_administrator
    ⟨lit "YWRtaW46YWRtaW4=", by decide +kernel, spells_iff.mpr ⟨52, by decide, by decide +kernel⟩⟩

/-- The credentials of the administrator are admitted with another scheme as well. -/
theorem other_scheme_admitted :
    header (adminRequest "Token " "YWRtaW46YWRtaW4=").text (lit "Authorization") =
        .ok (lit "Token YWRtaW46YWRtaW4=") ∧
      ¬ (PassesBasicAuth .bare (adminRequest "Token " "YWRtaW46YWRtaW4=") ↔
        IsAdministrator (lit "Token YWRtaW46YWRtaW4=")) := by
  refine ⟨by decide +kernel, fun h => ?_⟩
  have hpasses : PassesBasicAuth .bare (adminRequest "Token " "YWRtaW46YWRtaW4=") :=
    (passes_basic_auth_iff Server.init).mpr (by decide +kernel)
  obtain ⟨s, hvalue, -⟩ := h.mp hpasses
  have hscheme : lit "Basic " <+: lit "Token YWRtaW46YWRtaW4=" := hvalue ▸ List.prefix_append _ _
  exact absurd hscheme (by decide)

end Dvws
