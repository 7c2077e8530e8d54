import Dvws.Bytes

/-!
# Decimal numbers

A number is written as its decimal digits and read back from them. The digits are ASCII characters,
so a text of them has one byte for each (`to_decimal_eq`).
-/

namespace Dvws

/-- The byte is a decimal digit. -/
def isDecimalDigit (c : UInt8) : Bool := 48 ≤ c && c ≤ 57

/-- The value of a text of decimal digits. -/
def digitsValue (s : Bytes) : Nat := s.foldl (fun n c => 10 * n + (c.toNat - 48)) 0

/-- The number that is written in decimal digits. -/
def readDecimal (s : Bytes) : Option Nat :=
  if s ≠ [] ∧ s.all isDecimalDigit = true then some (digitsValue s) else none

/-- The byte of an ASCII character. -/
def asciiByte (c : Char) : UInt8 := UInt8.ofNat c.toNat

/-- A text of ASCII characters has one byte for each. -/
theorem lit_of_ascii {cs : List Char} (h : ∀ c ∈ cs, c.toNat < 128) :
    lit (String.ofList cs) = cs.map asciiByte := by
  unfold lit
  rw [String.toByteArray_ofList]
  induction cs with
  | nil => rfl
  | cons c cs ih =>
      have hc : c.toNat < 128 := h c List.mem_cons_self
      have hbyte : String.utf8EncodeChar c = [asciiByte c] := by
        have hsmall : c.val.toNat ≤ 0x7f := Nat.le_of_lt_succ hc
        unfold String.utf8EncodeChar
        rw [if_pos hsmall]
        rfl
      have htail := ih fun c' hc' => h c' (List.mem_cons_of_mem _ hc')
      rw [List.utf8Encode_cons, List.utf8Encode_singleton, hbyte]
      simpa using htail

/-- A digit character is an ASCII digit. -/
theorem digit_of_is_digit {c : Char} (h : c.isDigit = true) :
    c.toNat < 128 ∧ isDecimalDigit (asciiByte c) = true ∧
      (asciiByte c).toNat - 48 = c.toNat - '0'.toNat := by
  have hrange : 48 ≤ c.toNat ∧ c.toNat ≤ 57 := by
    unfold Char.isDigit at h
    simp only [ge_iff_le, Bool.and_eq_true, decide_eq_true_eq, UInt32.le_iff_toNat_le] at h
    exact h
  have hbyte : (asciiByte c).toNat = c.toNat := by
    rw [asciiByte, UInt8.toNat_ofNat']
    omega
  refine ⟨by omega, ?_, ?_⟩
  · simp [isDecimalDigit, UInt8.le_iff_toNat_le, hbyte, hrange]
  · rw [hbyte]
    rfl

/-- `toDecimal` gives the digits of a number as bytes. -/
theorem to_decimal_eq (n : Nat) : toDecimal n = (Nat.toDigits 10 n).map asciiByte := by
  have hdigits : ∀ c ∈ Nat.toDigits 10 n, c.isDigit = true := fun c hc =>
    Nat.isDigit_of_mem_toDigits (by decide) (by decide) hc
  rw [toDecimal, Nat.toString_eq_ofList_toDigits]
  exact lit_of_ascii fun c hc => (digit_of_is_digit (hdigits c hc)).1

/-- A number is written in digits. -/
theorem is_digit_of_mem_to_decimal {n : Nat} {c : UInt8} (h : c ∈ toDecimal n) :
    isDecimalDigit c = true := by
  rw [to_decimal_eq] at h
  obtain ⟨digit, hdigit, rfl⟩ := List.mem_map.mp h
  exact (digit_of_is_digit (Nat.isDigit_of_mem_toDigits (by decide) (by decide) hdigit)).2.1

/-- A number has at least one digit. -/
theorem to_decimal_ne_nil (n : Nat) : toDecimal n ≠ [] := by
  rw [to_decimal_eq]
  simp

/-- A number is read back from its digits. -/
@[simp] theorem read_to_decimal (n : Nat) : readDecimal (toDecimal n) = some n := by
  have hall : (toDecimal n).all isDecimalDigit = true :=
    List.all_eq_true.mpr fun c hc => is_digit_of_mem_to_decimal hc
  have hvalue : digitsValue (toDecimal n) = n := by
    have hfold : ∀ (cs : List Char) (start : Nat), (∀ c ∈ cs, c.isDigit = true) →
        (cs.map asciiByte).foldl (fun n c => 10 * n + (c.toNat - 48)) start =
          Nat.ofDigitChars 10 cs start := by
      intro cs
      induction cs with
      | nil => exact fun start _ => rfl
      | cons c cs ih =>
          intro start hdigits
          have hc := (digit_of_is_digit (hdigits c List.mem_cons_self)).2.2
          rw [List.map_cons, List.foldl_cons, hc, Nat.ofDigitChars_cons]
          exact ih _ fun c' hc' => hdigits c' (List.mem_cons_of_mem _ hc')
    rw [digitsValue, to_decimal_eq, hfold]
    · exact Nat.ofDigitChars_ten_toDigits
    · exact fun c hc => Nat.isDigit_of_mem_toDigits (by decide) (by decide) hc
  rw [readDecimal, if_pos ⟨to_decimal_ne_nil n, hall⟩, hvalue]

end Dvws
