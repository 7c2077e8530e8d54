import Mathlib.Data.List.Nodup
import Dvws.Base64
import Dvws.Codec.Bits

/-!
# What a Base64 text spells

A text is well formed when its length is a multiple of four and it consists of characters of the
alphabet and up to two `=` behind them. It spells the bytes whose bits its characters write, six a
character, with less than a byte left over (`Spells`); it is canonical when what is left over is
zero. A text spells one byte string only (`Spells.unique`), and a byte string has one canonical
text (`Spells.canonical_unique`). This says what Base64 is for, without a look at the code.
-/

namespace Dvws.Base64

open Codec

/-! ## The alphabet -/

/-- The character is one of the alphabet. -/
def IsDigit (c : UInt8) : Prop := c ∈ encodingTable

instance (c : UInt8) : Decidable (IsDigit c) := inferInstanceAs (Decidable (_ ∈ _))

/-- There are 64 characters. -/
theorem length_encoding_table : encodingTable.length = 64 := rfl

/-- The characters of the alphabet are different. -/
theorem nodup_encoding_table : encodingTable.Nodup := by decide +kernel

/-- Padding is no character of the alphabet. -/
theorem not_digit_padding : ¬ IsDigit 61 := by decide +kernel

/-- A table entry is the position of the character. -/
theorem decoding_table_eq_iff {c : UInt8} {i : Nat} (hi : i < 64) :
    decodingTable c = i ↔ encodingTable[i]? = some c := by
  have hlength := length_encoding_table
  unfold decodingTable
  cases hpos : encodingTable.idxOf? c with
  | none =>
      have hnot : c ∉ encodingTable := List.idxOf?_eq_none_iff.mp hpos
      constructor
      · intro h
        dsimp only at h
        omega
      · intro h
        exact absurd (List.mem_of_getElem? h) hnot
  | some j =>
      obtain ⟨hj, hget, -⟩ := List.idxOf?_eq_some_iff.mp hpos
      dsimp only
      constructor
      · rintro rfl
        rw [List.getElem?_eq_getElem hj, hget]
      · intro h
        obtain ⟨hbound, hsame⟩ := List.getElem?_eq_some_iff.mp h
        rw [← hget] at hsame
        exact (nodup_encoding_table.getElem_inj_iff.mp hsame).symm

/-- The characters of the alphabet are those with a small entry. -/
theorem is_digit_iff {c : UInt8} : IsDigit c ↔ decodingTable c < 64 := by
  constructor
  · intro h
    obtain ⟨i, hi⟩ := List.mem_iff_getElem?.mp h
    have hbound : i < 64 := (List.getElem?_eq_some_iff.mp hi).1
    rw [(decoding_table_eq_iff hbound).mpr hi]
    exact hbound
  · intro h
    exact List.mem_of_getElem? ((decoding_table_eq_iff h).mp rfl)

/-- Characters of the alphabet have different entries. -/
theorem decoding_table_injective {c d : UInt8} (hc : IsDigit c)
    (h : decodingTable c = decodingTable d) : c = d := by
  have hbound := is_digit_iff.mp hc
  have hfirst := (decoding_table_eq_iff hbound).mp rfl
  have hsecond := (decoding_table_eq_iff hbound).mp h.symm
  exact Option.some.inj (hfirst.symm.trans hsecond)

/-- Of all other characters the entry is `-1`. -/
theorem decoding_table_of_not_digit {c : UInt8} (h : ¬ IsDigit c) :
    decodingTable c = 2 ^ 32 - 1 := by
  have hnone : encodingTable.idxOf? c = none := List.idxOf?_eq_none_iff.mpr h
  rw [decodingTable, hnone]

/-- A character of the alphabet is no padding. -/
theorem IsDigit.ne_padding {c : UInt8} (h : IsDigit c) : c ≠ 61 := by
  rintro rfl
  exact not_digit_padding h

/-- The sextet of a character of the alphabet is its entry in the table. -/
theorem IsDigit.sextet_eq {c : UInt8} (h : IsDigit c) : sextet c = decodingTable c :=
  if_neg h.ne_padding

/-- The value of a character of the alphabet has six bits. -/
theorem IsDigit.sextet_lt {c : UInt8} (h : IsDigit c) : sextet c < 2 ^ 6 := by
  rw [h.sextet_eq]
  exact is_digit_iff.mp h

/-! ## Well-formed texts -/

/-- The characters before the padding. -/
def digits (s : Bytes) : Bytes := s.takeWhile fun c => decide (IsDigit c)

/-- A run of characters of the alphabet, then up to two `=`, in groups of four. -/
structure WellFormed (s : Bytes) : Prop where
  groups : s.length % 4 = 0
  padded : ∃ pad ≤ 2, s = digits s ++ List.replicate pad 61

/-- What stands before the padding are characters of the alphabet. -/
theorem is_digit_of_mem_digits {s : Bytes} {c : UInt8} (h : c ∈ digits s) : IsDigit c := by
  simpa using List.mem_takeWhile_imp h

/-- A character of the alphabet stands before the padding. -/
theorem digits_cons {c : UInt8} (h : IsDigit c) (s : Bytes) : digits (c :: s) = c :: digits s := by
  simp [digits, h]

/-- Nothing does in front of which there is padding. -/
theorem digits_padding (s : Bytes) : digits (61 :: s) = [] := by
  simp [digits, not_digit_padding]

/-- Before the padding stands all that comes before it. -/
theorem digits_append {body : Bytes} (h : ∀ c ∈ body, IsDigit c) (pad : Nat) :
    digits (body ++ List.replicate pad 61) = body := by
  induction body with
  | nil =>
      cases pad with
      | zero => rfl
      | succ pad => exact digits_padding _
  | cons c body ih =>
      rw [List.forall_mem_cons] at h
      rw [List.cons_append, digits_cons h.1, ih h.2]

/-- Characters of the alphabet and padding in groups of four are well formed. -/
theorem well_formed_append {body : Bytes} {pad : Nat} (hbody : ∀ c ∈ body, IsDigit c)
    (hpad : pad ≤ 2) (hgroups : (body.length + pad) % 4 = 0) :
    WellFormed (body ++ List.replicate pad 61) := by
  refine ⟨?_, pad, hpad, ?_⟩
  · rwa [List.length_append, List.length_replicate]
  · rw [digits_append hbody]

/-- The forms of a well-formed text: nothing, a last group with one or two `=`, or a group of
characters before a well-formed text. -/
inductive Grouped : Bytes → Prop where
  | nil : Grouped []
  | two {a b : UInt8} : IsDigit a → IsDigit b → Grouped [a, b, 61, 61]
  | three {a b c : UInt8} : IsDigit a → IsDigit b → IsDigit c → Grouped [a, b, c, 61]
  | quad {a b c d : UInt8} {s : Bytes} : IsDigit a → IsDigit b → IsDigit c → IsDigit d →
      Grouped s → Grouped (a :: b :: c :: d :: s)

/-- The padding of a text of characters makes up its last group. -/
theorem grouped_append {body : Bytes} {pad : Nat} (hbody : ∀ c ∈ body, IsDigit c)
    (hpad : pad ≤ 2) (hgroups : (body.length + pad) % 4 = 0) :
    Grouped (body ++ List.replicate pad 61) := by
  match body with
  | [] =>
      obtain rfl : pad = 0 := by
        simp only [List.length_nil] at hgroups
        omega
      exact .nil
  | [a] =>
      simp only [List.length_singleton] at hgroups
      omega
  | [a, b] =>
      obtain rfl : pad = 2 := by
        simp only [List.length_cons, List.length_nil] at hgroups
        omega
      exact .two (hbody a (by simp)) (hbody b (by simp))
  | [a, b, c] =>
      obtain rfl : pad = 1 := by
        simp only [List.length_cons, List.length_nil] at hgroups
        omega
      exact .three (hbody a (by simp)) (hbody b (by simp)) (hbody c (by simp))
  | a :: b :: c :: d :: rest =>
      have hrest : ∀ e ∈ rest, IsDigit e := fun e he => hbody e (by simp [he])
      have hsmaller : (rest.length + pad) % 4 = 0 := by
        simp only [List.length_cons] at hgroups
        omega
      exact .quad (hbody a (by simp)) (hbody b (by simp)) (hbody c (by simp)) (hbody d (by simp))
        (grouped_append hrest hpad hsmaller)

/-- A well-formed text has one of the forms. -/
theorem WellFormed.grouped {s : Bytes} (h : WellFormed s) : Grouped s := by
  obtain ⟨hgroups, pad, hpad, hs⟩ := h
  rw [hs]
  refine grouped_append (fun c hc => is_digit_of_mem_digits hc) hpad ?_
  rwa [hs, List.length_append, List.length_replicate] at hgroups

/-- Each of the forms is well formed. -/
theorem Grouped.wellFormed {s : Bytes} (h : Grouped s) : WellFormed s := by
  induction h with
  | nil => exact ⟨rfl, 0, by decide, rfl⟩
  | two ha hb =>
      refine ⟨by simp, 2, by decide, ?_⟩
      rw [digits_cons ha, digits_cons hb, digits_padding]
      rfl
  | three ha hb hc =>
      refine ⟨by simp, 1, by decide, ?_⟩
      rw [digits_cons ha, digits_cons hb, digits_cons hc, digits_padding]
      rfl
  | quad ha hb hc hd _ ih =>
      obtain ⟨hgroups, pad, hpad, hsplit⟩ := ih
      refine ⟨?_, pad, hpad, ?_⟩
      · simp only [List.length_cons]
        omega
      · rw [digits_cons ha, digits_cons hb, digits_cons hc, digits_cons hd]
        simpa only [List.cons_append, List.cons.injEq, true_and] using hsplit

/-! ## Spelling -/

/-- The bits of a byte string. -/
def dataBits (x : Bytes) : List Bool := x.flatMap fun b => bits 8 b.toNat

/-- The bits that the characters of a text write. -/
def textBits (s : Bytes) : List Bool := (digits s).flatMap fun c => bits 6 (decodingTable c)

/-- The text is a well-formed spelling of the bytes; less than a byte is left over. -/
structure Spells (s x : Bytes) : Prop where
  wellFormed : WellFormed s
  rest : ∃ unused, unused.length < 8 ∧ textBits s = dataBits x ++ unused

/-- What is left over of a well-formed text is zero. -/
structure Canonical (s : Bytes) : Prop where
  wellFormed : WellFormed s
  unused : ∀ bit ∈ (textBits s).drop (8 * ((textBits s).length / 8)), bit = false

/-- The bits of two parts are those of the first and then those of the second. -/
theorem data_bits_append (x y : Bytes) : dataBits (x ++ y) = dataBits x ++ dataBits y :=
  List.flatMap_append

theorem length_data_bits (x : Bytes) : (dataBits x).length = 8 * x.length :=
  length_flatMap_bits 8 UInt8.toNat x

theorem length_text_bits (s : Bytes) : (textBits s).length = 6 * (digits s).length :=
  length_flatMap_bits 6 decodingTable (digits s)

/-- Bytes can be read back from their bits. -/
theorem data_bits_injective {x y : Bytes} (hlength : x.length = y.length)
    (h : dataBits x = dataBits y) : x = y := by
  refine flatMap_bits_injective (p := fun _ => True) (fun a b _ _ hbits => ?_) (by simp) (by simp)
    hlength h
  exact UInt8.toNat_inj.mp (bits_injective a.toNat_lt b.toNat_lt hbits)

/-- Texts of equally many characters with the same bits have the same characters. -/
theorem text_bits_injective {s t : Bytes} (hlength : (digits s).length = (digits t).length)
    (h : textBits s = textBits t) : digits s = digits t := by
  refine flatMap_bits_injective (p := IsDigit) (fun a b ha hb hbits => ?_)
    (fun c hc => is_digit_of_mem_digits hc) (fun c hc => is_digit_of_mem_digits hc) hlength h
  exact decoding_table_injective ha
    (bits_injective (is_digit_iff.mp ha) (is_digit_iff.mp hb) hbits)

/-- One more character puts its six bits in front of those of the text. -/
theorem text_bits_cons {c : UInt8} (h : IsDigit c) (s : Bytes) :
    textBits (c :: s) = bits 6 (decodingTable c) ++ textBits s := by
  rw [textBits, digits_cons h, List.flatMap_cons, ← textBits]

/-- Padding has no bits. -/
theorem text_bits_padding (s : Bytes) : textBits (61 :: s) = [] := by
  rw [textBits, digits_padding, List.flatMap_nil]

/-- The bytes that a text spells are as many as its bits fill. -/
theorem Spells.length_eq {s x : Bytes} (h : Spells s x) :
    x.length = (textBits s).length / 8 := by
  obtain ⟨unused, hunused, hbits⟩ := h.rest
  rw [hbits, List.length_append, length_data_bits]
  omega

/-- A text spells at most one byte string. -/
theorem Spells.unique {s x y : Bytes} (hx : Spells s x) (hy : Spells s y) : x = y := by
  have hlength : x.length = y.length := hx.length_eq.trans hy.length_eq.symm
  obtain ⟨unused, -, hbits⟩ := hx.rest
  obtain ⟨unused', -, hbits'⟩ := hy.rest
  have hsame : (dataBits x).length = (dataBits y).length := by
    rw [length_data_bits, length_data_bits, hlength]
  exact data_bits_injective hlength (List.append_inj (hbits.symm.trans hbits') hsame).1

/-- The bits of a canonical text are those of what it spells, and zeros. -/
theorem Canonical.text_bits_eq {s x : Bytes} (hs : Canonical s) (h : Spells s x) :
    textBits s = dataBits x ++ List.replicate ((textBits s).length % 8) false := by
  obtain ⟨unused, hunused, hbits⟩ := h.rest
  have hdrop : (textBits s).drop (8 * ((textBits s).length / 8)) = unused := by
    rw [← h.length_eq, ← length_data_bits, hbits, List.drop_left]
  have hzero : unused = List.replicate unused.length false := by
    refine List.eq_replicate_iff.mpr ⟨rfl, fun bit hbit => hs.unused bit ?_⟩
    rwa [hdrop]
  have hcount : (textBits s).length % 8 = unused.length := by
    rw [hbits, List.length_append, length_data_bits]
    omega
  rw [hcount, ← hzero, hbits]

/-- The number of characters and the padding of a well-formed text follow from the number of
bytes. -/
theorem Spells.digits_length {s t x : Bytes} (hs : Spells s x) (ht : Spells t x) :
    (digits s).length = (digits t).length ∧ s.length = t.length := by
  have hlength := hs.length_eq.symm.trans ht.length_eq
  rw [length_text_bits, length_text_bits] at hlength
  obtain ⟨hgroups, pad, hpad, hsplit⟩ := hs.wellFormed
  obtain ⟨hgroups', pad', hpad', hsplit'⟩ := ht.wellFormed
  have hcount := congrArg List.length hsplit
  have hcount' := congrArg List.length hsplit'
  rw [List.length_append, List.length_replicate] at hcount hcount'
  -- every group is three bytes, less one for each `=`
  have hbytes : 6 * (digits s).length / 8 + pad = 3 * (s.length / 4) := by omega
  have hbytes' : 6 * (digits t).length / 8 + pad' = 3 * (t.length / 4) := by omega
  omega

/-- A byte string has at most one canonical text. -/
theorem Spells.canonical_unique {s t x : Bytes} (hs : Canonical s) (ht : Canonical t)
    (hsx : Spells s x) (htx : Spells t x) : s = t := by
  obtain ⟨hdigits, hlength⟩ := hsx.digits_length htx
  have hbits : textBits s = textBits t := by
    rw [hs.text_bits_eq hsx, ht.text_bits_eq htx, length_text_bits, length_text_bits, hdigits]
  have hsame := text_bits_injective hdigits hbits
  obtain ⟨-, pad, -, hsplit⟩ := hs.wellFormed
  obtain ⟨-, pad', -, hsplit'⟩ := ht.wellFormed
  have hpad : pad = pad' := by
    have hcount := congrArg List.length hsplit
    have hcount' := congrArg List.length hsplit'
    rw [List.length_append, List.length_replicate] at hcount hcount'
    omega
  rw [hsplit, hsplit', hsame, hpad]

end Dvws.Base64
