import Dvws.Codec.JsonString
import Dvws.Handlers.Status

/-!
# Escaped JSON

`json_escape` writes the values of the status document: a quotation mark and a backslash behind a
backslash, a control byte as a `\u` escape, and every other byte as it is. Each of these is one
character of a string literal, so between quotation marks the escaped text is a literal, whatever
follows it in the document, and stands for the text that was escaped
(`json_escape_is_reversible`).
-/

namespace Dvws

open Codec Codec.Json

/-- The character that a byte is escaped to. -/
def jsonCharacter (c : UInt8) : Character := if c < 32 then .unit c.toNat else .byte c

/-- A control byte is written with its two digits. -/
theorem four_digits_of_control {c : UInt8} (h : c < 32) :
    fourDigits 48 48 (hexDigit (c.toNat / 16)) (hexDigit (c.toNat % 16)) = some c.toNat := by
  have hall : ∀ n < 32, fourDigits 48 48 (hexDigit (n / 16)) (hexDigit (n % 16)) = some n := by
    decide
  exact hall c.toNat h

/-- Hexadecimal digits are printable. -/
theorem hex_digit_printable {n : Nat} (h : n < 16) : 32 ≤ hexDigit n := by
  have hall : ∀ n < 16, 32 ≤ hexDigit n := by decide
  exact hall n h

/-- A step of `json_escape` is read as one character. -/
theorem character_reader_undoes : characterReader.Undoes jsonEscapeByte jsonCharacter := by
  intro c rest
  show nextCharacter (jsonEscapeByte c ++ rest) = some (jsonCharacter c, rest)
  unfold jsonEscapeByte
  split
  · rename_i hspecial
    rcases hspecial with rfl | rfl
    · rfl
    · rfl
  · rename_i hplain
    obtain ⟨hmark, hescape⟩ := not_or.mp hplain
    split
    · rename_i hcontrol
      show (fourDigits 48 48 (hexDigit (c.toNat / 16)) (hexDigit (c.toNat % 16))).map _ = _
      rw [four_digits_of_control hcontrol, jsonCharacter, if_pos hcontrol]
      rfl
    · rename_i hprintable
      rw [jsonCharacter, if_neg hprintable]
      exact next_of_plain (UInt8.not_lt.mp hprintable) hmark hescape rest

/-- The characters stand for the bytes that were escaped. -/
theorem decode_json_characters (s : Bytes) : decode (s.map jsonCharacter) = some s := by
  refine decode_map fun c _ rest => ?_
  unfold jsonCharacter
  split
  · rename_i hcontrol
    have hsmall : c.toNat < 32 := hcontrol
    rw [decode_unit (by omega), utf8_of_byte (UInt8.lt_trans hcontrol (by decide))]
    rfl
  · rfl

/-- No step of `json_escape` writes a control byte. -/
theorem json_escape_byte_printable {c d : UInt8} (h : d ∈ jsonEscapeByte c) : 32 ≤ d := by
  unfold jsonEscapeByte at h
  split at h
  · rename_i hspecial
    simp only [List.mem_cons, List.not_mem_nil, or_false] at h
    rcases h with rfl | rfl
    · decide
    · rcases hspecial with rfl | rfl <;> decide
  · split at h
    · rename_i hcontrol
      have hsmall : c.toNat < 32 := hcontrol
      rcases List.mem_append.mp h with hfront | hdigits
      · exact forall_mem_of_all (p := fun d => 32 ≤ d) (by decide) d hfront
      · simp only [List.mem_cons, List.not_mem_nil, or_false] at hdigits
        rcases hdigits with rfl | rfl
        · exact hex_digit_printable (by omega)
        · exact hex_digit_printable (Nat.mod_lt _ (by decide))
    · rename_i hprintable
      obtain rfl := List.mem_singleton.mp h
      exact UInt8.not_lt.mp hprintable

/-- Between quotation marks the escaped text is one literal without control bytes, whatever follows
it, and stands for the text that the buffer holds. -/
theorem json_escape_is_reversible (buffer : Bytes) :
    (∀ rest, ∃ characters,
      readLiteral (lit "\"" ++ jsonEscape buffer ++ lit "\"" ++ rest) = some (characters, rest) ∧
        decode characters = some (cstr buffer)) ∧
      ∀ c ∈ jsonEscape buffer, 32 ≤ c := by
  refine ⟨fun rest => ⟨(cstr buffer).map jsonCharacter, ?_, decode_json_characters _⟩, ?_⟩
  · have htext : lit "\"" ++ jsonEscape buffer ++ lit "\"" ++ rest =
        34 :: (jsonEscape buffer ++ 34 :: rest) := by
      rw [List.append_assoc, List.append_assoc]
      rfl
    have hmark : characterReader.next (34 :: rest) = none := next_of_mark rest
    rw [htext]
    exact readLiteral_of_read (character_reader_undoes.read_flatMap hmark (cstr buffer))
  · intro c hc
    obtain ⟨d, -, hd⟩ := List.mem_flatMap.mp hc
    exact json_escape_byte_printable hd

end Dvws
