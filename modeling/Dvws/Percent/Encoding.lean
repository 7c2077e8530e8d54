import Dvws.Handlers.StatusDecoder

/-!
# Percent-encodings

`url_decode` and `decode_status_param` decode the same escapes in two ways: with a stream
extraction and with a table of digits, up to the end of a string and up to a terminator. Both give
back the bytes of which a text is an encoding (`decoders_undo_encoding`).
-/

namespace Dvws

/-- The text writes each of the bytes as itself, unless it is one of `%`, `+`, NUL, CR and LF, or
as `%` and two hexadecimal digits. -/
inductive Encodes : Bytes → Bytes → Prop where
  | nil : Encodes [] []
  | literal {c : UInt8} {text bytes : Bytes} :
      c ≠ 37 → c ≠ 43 → c ≠ 0 → c ≠ 13 → c ≠ 10 → Encodes text bytes →
      Encodes (c :: text) (c :: bytes)
  | escape {b x y : UInt8} {text bytes : Bytes} :
      hexVal x = some (b.toNat / 16) → hexVal y = some (b.toNat % 16) → Encodes text bytes →
      Encodes (37 :: x :: y :: text) (b :: bytes)

/-! ## The stream extraction -/

/-- A hexadecimal digit is a digit or a letter. -/
theorem hex_val_range {c : UInt8} {n : Nat} (h : hexVal c = some n) :
    (48 ≤ c.toNat ∧ c.toNat ≤ 57) ∨ (97 ≤ c.toNat ∧ c.toNat ≤ 102) ∨
      (65 ≤ c.toNat ∧ c.toNat ≤ 70) := by
  unfold hexVal at h
  split at h
  · next hc => exact Or.inl hc
  · split at h
    · next hc => exact Or.inr (Or.inl hc)
    · split at h
      · next hc => exact Or.inr (Or.inr hc)
      · cases h

/-- A hexadecimal digit is no white space. -/
theorem not_space_of_hex {c : UInt8} {n : Nat} (h : hexVal c = some n) : isSpace c = false := by
  have hrange := hex_val_range h
  by_contra hspace
  simp only [isSpace, Bool.not_eq_false, Bool.or_eq_true, decide_eq_true_eq,
    Bool.and_eq_true, UInt8.le_iff_toNat_le] at hspace
  obtain rfl | hspace := hspace
  · exact absurd hrange (by decide)
  · change 9 ≤ c.toNat ∧ c.toNat ≤ 13 at hspace
    omega

/-- Two hexadecimal digits are extracted as the number they write. -/
theorem extract_hex_digits {x y : UInt8} {hi lo : Nat} (hx : hexVal x = some hi)
    (hy : hexVal y = some lo) (value : Int) : extractHex [x, y] value = 16 * hi + lo := by
  have hxrange := hex_val_range hx
  have hyrange := hex_val_range hy
  have hne : ∀ {c d : UInt8}, c.toNat ≠ d.toNat → c ≠ d := fun h heq => h (congrArg _ heq)
  have hminus : x ≠ 45 := hne (by show x.toNat ≠ 45; omega)
  have hplus : x ≠ 43 := hne (by show x.toNat ≠ 43; omega)
  have hlower : y ≠ 120 := hne (by show y.toNat ≠ 120; omega)
  have hupper : y ≠ 88 := hne (by show y.toNat ≠ 88; omega)
  have hunsigned : extractHex.unsignedHex [x, y] = 16 * hi + lo := by
    unfold extractHex.unsignedHex
    simp [hlower, hupper, hexNumber, hx, hy]
  unfold extractHex
  rw [List.dropWhile_cons_of_neg (by simpa using not_space_of_hex hx)]
  simp [hminus, hplus, hunsigned]

/-- A byte is put together again from its two halves. -/
theorem char_of_halves (b : UInt8) : charOfInt (16 * (b.toNat / 16 : Nat) + (b.toNat % 16 : Nat)) =
    b := by
  have hvalue : ((16 * (b.toNat / 16 : Nat) + (b.toNat % 16 : Nat) : Int) % 256).toNat =
      b.toNat := by
    have hlt := b.toNat_lt
    omega
  rw [charOfInt, hvalue, UInt8.ofNat_toNat]

/-- `url_decode` gives back what is encoded, whatever its local variable held. -/
theorem Encodes.url_decode {text bytes : Bytes} (h : Encodes text bytes) (uninit : Nat → Int)
    (i : Nat) : urlDecodeFrom uninit i text = bytes := by
  induction h generalizing i with
  | nil => rfl
  | literal hpercent hplus _ _ _ _ ih =>
      rw [urlDecodeFrom.eq_def]
      simp [hpercent, ih]
  | escape hx hy _ ih =>
      rw [urlDecodeFrom, ih, extract_hex_digits hx hy, char_of_halves]

/-! ## The table of digits -/

/-- `decode_status_param` gives back what is encoded up to the end of the parameter. -/
theorem Encodes.decode_status_param {text bytes : Bytes} (h : Encodes text bytes) {rest : Bytes}
    (hrest : parameterText rest = []) : decodeStatusParam (text ++ rest) = bytes := by
  induction h with
  | nil =>
      rw [List.nil_append, ← decode_parameter_text, hrest]
      rfl
  | @literal c text bytes hpercent _ hnul hreturn hfeed _ ih =>
      have hends : endsParameter c = false := by simp [endsParameter, hnul, hreturn, hfeed]
      have hcopy : startsWithEscape (c :: (text ++ rest)) = false := by
        simp [startsWithEscape, hpercent]
      rw [List.cons_append, decode_copy hends hcopy, ih]
  | @escape b x y text bytes hx hy _ ih =>
      have hhalves : 16 * (b.toNat / 16) + b.toNat % 16 = b.toNat := Nat.div_add_mod _ _
      rw [List.cons_append, List.cons_append, List.cons_append, decode_escape hx hy, ih, hhalves,
        UInt8.ofNat_toNat]

/-- Both decoders give back the bytes of which a text is an encoding: `url_decode` of the string,
and `decode_status_param` of a buffer in which it is followed by nothing or by a terminator. -/
theorem decoders_undo_encoding {text bytes : Bytes} (h : Encodes text bytes) :
    (∀ uninit, urlDecode uninit text = bytes) ∧
      ∀ rest, (∀ c ∈ rest.head?, endsParameter c = true) →
        decodeStatusParam (text ++ rest) = bytes := by
  refine ⟨fun uninit => h.url_decode uninit 0, fun rest hrest => h.decode_status_param ?_⟩
  cases rest with
  | nil => rfl
  | cons c rest => exact parameter_text_of_ends (hrest c rfl) rest

/-- An escape at the end is decoded to a byte that ends a parameter when it is written as itself. -/
theorem decoders_undo_encoding_line :
    (∀ uninit, urlDecode uninit (lit "a%0a") = lit "a\n") ∧
      ∀ rest, (∀ c ∈ rest.head?, endsParameter c = true) →
        decodeStatusParam (lit "a%0a" ++ rest) = lit "a\n" :=
  decoders_undo_encoding (.literal (by decide) (by decide) (by decide) (by decide) (by decide)
    (.escape (b := 10) (by decide) (by decide) .nil))

end Dvws
