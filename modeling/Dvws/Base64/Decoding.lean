import Dvws.Base64.Spelling

/-!
# What the decoder returns

For a well-formed text `base64_decode` returns the bytes that it spells
(`decode_of_well_formed`). It rejects a text for its length only: the entry `-1` of a character
that is not in the alphabet is added up like any other, and `=` counts as zero wherever it stands.
So it accepts exactly the well-formed texts among those without stray characters
(`decode_accepts_iff`).
-/

namespace Dvws.Base64

open Codec

/-- The bytes of the buffer that `base64_decode` returns. -/
def decoded (s : Bytes) : Bytes := (decodeQuads s).take (decodedLength s)

/-- A text in groups of four is decoded when there is memory for the result. -/
theorem decode_of_groups {malloc : Nat → Bool} {s : Bytes} (hgroups : s.length % 4 = 0)
    (hmalloc : malloc (decodedLength s + 1) = true) : base64Decode malloc s = some (decoded s) := by
  rw [base64Decode, if_neg (not_not_intro hgroups), if_pos hmalloc, decoded]

/-- In a block of memory, exactly the texts whose length is a multiple of four are decoded. -/
theorem decode_isSome_iff {malloc : Nat → Bool} {s : Bytes}
    (hmalloc : malloc (decodedLength s + 1) = true) :
    (base64Decode malloc s).isSome = true ↔ s.length % 4 = 0 := by
  by_cases hgroups : s.length % 4 = 0
  · simp [decode_of_groups hgroups hmalloc, hgroups]
  · simp [base64Decode, hgroups]

/-! ## The bits of a group -/

/-- The three bytes of a group have the bits of its four values. -/
theorem data_bits_decode_quad {a b c d : UInt8} (ha : sextet a < 2 ^ 6) (hb : sextet b < 2 ^ 6)
    (hc : sextet c < 2 ^ 6) (hd : sextet d < 2 ^ 6) :
    dataBits (decodeQuad a b c d) =
      bits 6 (sextet a) ++ (bits 6 (sextet b) ++ (bits 6 (sextet c) ++ bits 6 (sextet d))) := by
  have hbytes : ∀ n, n < 2 ^ 24 → dataBits [UInt8.ofNat (n / 2 ^ 16 % 256),
      UInt8.ofNat (n / 2 ^ 8 % 256), UInt8.ofNat (n % 256)] = bits 24 n := by
    intro n hn
    have hbyte : ∀ m, bits 8 (UInt8.ofNat (m % 256)).toNat = bits 8 m := fun m => by
      rw [UInt8.toNat_ofNat', Nat.mod_mod_of_dvd _ (by decide)]
      exact bits_mod 8 m
    rw [show 24 = 8 + (8 + 8) from rfl, bits_add, bits_add]
    simp only [dataBits, List.flatMap_cons, List.flatMap_nil, List.append_nil, hbyte]
  have hvalue : sextet a * 2 ^ 18 + sextet b * 2 ^ 12 + sextet c * 2 ^ 6 + sextet d =
      ((sextet a * 2 ^ 6 + sextet b) * 2 ^ 6 + sextet c) * 2 ^ 6 + sextet d := by omega
  have hsmall : sextet a * 2 ^ 18 + sextet b * 2 ^ 12 + sextet c * 2 ^ 6 + sextet d < 2 ^ 24 := by
    omega
  unfold decodeQuad
  rw [Nat.mod_eq_of_lt (hsmall.trans (by decide)), hbytes _ hsmall, hvalue,
    show 24 = 6 + 6 + 6 + 6 from rfl, bits_concat _ _ hd, bits_concat _ _ hc, bits_concat _ _ hb,
    List.append_assoc, List.append_assoc]

/-- The bits of the first bytes are the first bits. -/
theorem data_bits_take (x : Bytes) (n : Nat) : dataBits (x.take n) = (dataBits x).take (8 * n) := by
  induction x generalizing n with
  | nil => simp [dataBits]
  | cons b x ih =>
      cases n with
      | zero => simp [dataBits]
      | succ n =>
          have hcons : dataBits (b :: x) = bits 8 b.toNat ++ dataBits x := List.flatMap_cons
          have hlength : 8 * (n + 1) = (bits 8 b.toNat).length + 8 * n := by
            rw [length_bits]
            omega
          rw [List.take_succ_cons, hcons, hlength, List.take_length_add_append, ← ih, dataBits,
            List.flatMap_cons, ← dataBits]

/-- The decoding loop goes through the groups. -/
theorem decode_quads_cons (a b c d : UInt8) (s : Bytes) :
    decodeQuads (a :: b :: c :: d :: s) = decodeQuad a b c d ++ decodeQuads s := by
  rw [decodeQuads]

/-- Two parts of a text, the first in whole groups, are decoded one after the other. -/
theorem decode_quads_append {s : Bytes} (h : s.length % 4 = 0) (t : Bytes) :
    decodeQuads (s ++ t) = decodeQuads s ++ decodeQuads t := by
  match s with
  | [] => rfl
  | a :: b :: c :: d :: rest =>
      have hrest : rest.length % 4 = 0 := by
        simp only [List.length_cons] at h
        omega
      rw [decode_quads_cons, List.append_assoc, ← decode_quads_append hrest t]
      exact decode_quads_cons a b c d (rest ++ t)
  | [_, _, _] | [_, _] | [_] => simp at h

/-- The decoding loop writes the bits of the text before any other. -/
theorem Grouped.text_bits_starts {s : Bytes} (h : Grouped s) :
    textBits s <+: dataBits (decodeQuads s) := by
  have hpadding : sextet 61 < 2 ^ 6 := by decide
  induction h with
  | nil => exact List.nil_prefix
  | two ha hb =>
      rw [decode_quads_cons, data_bits_append,
        data_bits_decode_quad ha.sextet_lt hb.sextet_lt hpadding hpadding, text_bits_cons ha,
        text_bits_cons hb, text_bits_padding, ha.sextet_eq, hb.sextet_eq]
      simp only [List.append_assoc, List.prefix_append_right_inj]
      exact List.nil_prefix
  | three ha hb hc =>
      rw [decode_quads_cons, data_bits_append,
        data_bits_decode_quad ha.sextet_lt hb.sextet_lt hc.sextet_lt hpadding, text_bits_cons ha,
        text_bits_cons hb, text_bits_cons hc, text_bits_padding, ha.sextet_eq, hb.sextet_eq,
        hc.sextet_eq]
      simp only [List.append_assoc, List.prefix_append_right_inj]
      exact List.nil_prefix
  | quad ha hb hc hd _ ih =>
      rw [decode_quads_cons, data_bits_append,
        data_bits_decode_quad ha.sextet_lt hb.sextet_lt hc.sextet_lt hd.sextet_lt,
        text_bits_cons ha, text_bits_cons hb, text_bits_cons hc, text_bits_cons hd,
        ha.sextet_eq, hb.sextet_eq, hc.sextet_eq, hd.sextet_eq]
      simpa only [List.append_assoc, List.prefix_append_right_inj] using ih

/-! ## Well-formed texts -/

/-- Only the padding behind the characters is `=`. -/
theorem getElem?_eq_padding_iff {body : Bytes} (h : ∀ c ∈ body, IsDigit c) (pad i : Nat) :
    (body ++ List.replicate pad 61)[i]? = some 61 ↔ body.length ≤ i ∧ i < body.length + pad := by
  by_cases hi : i < body.length
  · rw [List.getElem?_append_left hi, List.getElem?_eq_getElem hi, Option.some.injEq]
    exact iff_of_false (h _ (List.getElem_mem hi)).ne_padding (by omega)
  · rw [List.getElem?_append_right (by omega), List.getElem?_replicate]
    simp only [ite_eq_left_iff, reduceCtorEq, imp_false, not_not]
    omega

/-- The decoder counts the bytes that the bits of a well-formed text fill. -/
theorem WellFormed.decoded_length {s : Bytes} (h : WellFormed s) :
    decodedLength s = (textBits s).length / 8 := by
  have hdigits : ∀ c ∈ digits s, IsDigit c := fun c hc => is_digit_of_mem_digits hc
  obtain ⟨hgroups, pad, hpad, hsplit⟩ := h
  have hlength := congrArg List.length hsplit
  rw [List.length_append, List.length_replicate] at hlength
  have hpadding : ∀ i, s[i]? = some 61 ↔ (digits s).length ≤ i ∧ i < s.length := fun i => by
    rw [hlength, ← getElem?_eq_padding_iff hdigits, ← hsplit]
  rw [length_text_bits]
  unfold decodedLength
  simp only [hpadding]
  split <;> split <;> omega

/-- A well-formed text spells what it is decoded to. -/
theorem spells_decoded {s : Bytes} (h : WellFormed s) : Spells s (decoded s) := by
  obtain ⟨rest, hrest⟩ := h.grouped.text_bits_starts
  have hbits : dataBits (decoded s) = (textBits s).take (8 * decodedLength s) := by
    rw [decoded, data_bits_take, ← hrest, List.take_append_of_le_length]
    rw [h.decoded_length]
    omega
  refine ⟨h, (textBits s).drop (8 * decodedLength s), ?_, ?_⟩
  · rw [List.length_drop, h.decoded_length]
    omega
  · rw [hbits, List.take_append_drop]

/-- A text that spells a byte string is decoded to it. -/
theorem decode_of_spells {malloc : Nat → Bool} {s x : Bytes} (h : Spells s x)
    (hmalloc : malloc (x.length + 1) = true) : base64Decode malloc s = some x := by
  have hdecoded : decoded s = x := (spells_decoded h.wellFormed).unique h
  have hlength : decodedLength s = x.length := by rw [h.wellFormed.decoded_length, h.length_eq]
  rw [decode_of_groups h.wellFormed.groups (by rwa [hlength]), hdecoded]

/-! ## Which texts are accepted -/

/-- Every character is one of the alphabet, or an `=` that is the last character or stands before
an `=` that is. -/
def NoStray (s : Bytes) : Prop :=
  ∀ front c rest, s = front ++ c :: rest → IsDigit c ∨ c = 61 ∧ (rest = [] ∨ rest = [61])

/-- Padding is followed by at most one more `=`. -/
theorem eq_of_padding {front rest : Bytes} {c : UInt8} {pad : Nat} (hpad : pad ≤ 2)
    (h : List.replicate pad 61 = front ++ c :: rest) : c = 61 ∧ (rest = [] ∨ rest = [61]) := by
  obtain ⟨hlength, hall⟩ := List.eq_replicate_iff.mp h.symm
  rw [List.length_append, List.length_cons] at hlength
  refine ⟨hall c (by simp), ?_⟩
  match rest with
  | [] => exact Or.inl rfl
  | [d] => exact Or.inr (congrArg (fun d => [d]) (hall d (by simp)))
  | d :: e :: rest =>
      rw [List.length_cons, List.length_cons] at hlength
      omega

/-- Nothing in a well-formed text is stray. -/
theorem WellFormed.noStray {s : Bytes} (h : WellFormed s) : NoStray s := by
  intro front c rest hfront
  obtain ⟨-, pad, hpad, hsplit⟩ := h
  obtain ⟨more, hbody, hrest⟩ | ⟨more, hbody, hrest⟩ :=
    List.append_eq_append_iff.mp (hsplit.symm.trans hfront)
  · exact Or.inr (eq_of_padding hpad hrest)
  · cases more with
    | nil =>
        have hwhole : List.replicate pad 61 = [] ++ c :: rest := hrest.symm
        exact Or.inr (eq_of_padding hpad hwhole)
    | cons d more =>
        obtain ⟨rfl, -⟩ := List.cons.inj hrest
        refine Or.inl (is_digit_of_mem_digits (s := s) ?_)
        rw [hbody]
        simp

/-- A text in groups is well formed when nothing in it is stray. -/
theorem well_formed_of_no_stray {s : Bytes} (hgroups : s.length % 4 = 0) (h : NoStray s) :
    WellFormed s := by
  have hsplit : s = digits s ++ s.dropWhile fun c => decide (IsDigit c) :=
    List.takeWhile_append_dropWhile.symm
  refine ⟨hgroups, ?_⟩
  cases hrest : s.dropWhile fun c => decide (IsDigit c) with
  | nil => exact ⟨0, Nat.zero_le 2, by rw [hrest] at hsplit; exact hsplit⟩
  | cons c rest =>
      rw [hrest] at hsplit
      have hstop : ¬ IsDigit c := by
        have hne : s.dropWhile (fun c => decide (IsDigit c)) ≠ [] := by
          rw [hrest]
          exact List.cons_ne_nil c rest
        simpa [hrest] using List.head_dropWhile_not (fun c => decide (IsDigit c)) hne
      -- the first character that is no digit is the padding
      obtain hdigit | ⟨rfl, rfl | rfl⟩ := h (digits s) c rest hsplit
      · exact absurd hdigit hstop
      · exact ⟨1, by decide, hsplit⟩
      · exact ⟨2, by decide, hsplit⟩

/-- A text is well formed exactly when its length is a multiple of four and nothing in it is
stray. -/
theorem well_formed_iff {s : Bytes} : WellFormed s ↔ s.length % 4 = 0 ∧ NoStray s :=
  ⟨fun h => ⟨h.groups, h.noStray⟩, fun h => well_formed_of_no_stray h.1 h.2⟩

/-- `base64_decode` tells the well-formed texts from the others exactly where the length does, or
nothing in the text is stray. -/
theorem decode_accepts_iff {malloc : Nat → Bool} {s : Bytes}
    (hmalloc : malloc (decodedLength s + 1) = true) :
    ((base64Decode malloc s).isSome = true ↔ WellFormed s) ↔ s.length % 4 ≠ 0 ∨ NoStray s := by
  rw [decode_isSome_iff hmalloc, well_formed_iff]
  constructor
  · intro h
    by_cases hgroups : s.length % 4 = 0
    · exact Or.inr (h.mp hgroups).2
    · exact Or.inl hgroups
  · intro h
    obtain hgroups | hclean := h
    · exact iff_of_false hgroups fun h => hgroups h.1
    · exact ⟨fun hgroups => ⟨hgroups, hclean⟩, And.left⟩

/-- A text with padding is accepted, and well formed. -/
theorem decode_accepts_iff_padded :
    (base64Decode (fun _ => true) (lit "TWE=")).isSome = true ∧ WellFormed (lit "TWE=") := by
  have hformed : WellFormed (lit "TWE=") := ⟨by decide, 1, by decide, by decide +kernel⟩
  exact ⟨((decode_accepts_iff rfl).mpr (Or.inr hformed.noStray)).mpr hformed, hformed⟩

/-- A text without any character of the alphabet is accepted. -/
theorem decode_accepts_stray :
    ¬ ((base64Decode (fun _ => true) (lit "!!!!")).isSome = true ↔ WellFormed (lit "!!!!")) := by
  intro h
  have hformed : WellFormed (lit "!!!!") := h.mp (by decide)
  have hstray := (well_formed_iff.mp hformed).2 [] 33 (lit "!!!") rfl
  exact absurd hstray (by decide +kernel)

end Dvws.Base64
