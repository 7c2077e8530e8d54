import Dvws.Codec.Letters

/-!
# String literals of JSON

The grammar of a string literal on bytes: between two quotation marks stand characters, each a byte
from `0x20` on that is neither a quotation mark nor a backslash, a backslash with one of eight
letters behind it, or `\u` with four hexadecimal digits. `readLiteral` takes a literal off the front
of a text, and `decode` gives the bytes that its characters stand for.
-/

namespace Dvws.Codec.Json

/-- A character of a literal: a byte, or the UTF-16 unit of a `\u` escape. -/
inductive Character where
  | byte (b : UInt8)
  | unit (n : Nat)
  deriving DecidableEq, Repr

/-- What the letter behind a backslash stands for. -/
def escapes : List (UInt8 × UInt8) :=
  [(34, 34), (92, 92), (47, 47), (98, 8), (102, 12), (110, 10), (114, 13), (116, 9)]

/-- The value of a hexadecimal digit. -/
def digitValue (c : UInt8) : Option Nat :=
  if 48 ≤ c ∧ c ≤ 57 then some (c.toNat - 48)
  else if 97 ≤ c ∧ c ≤ 102 then some (c.toNat - 87)
  else if 65 ≤ c ∧ c ≤ 70 then some (c.toNat - 55)
  else none

/-- The number of four hexadecimal digits. -/
def fourDigits (a b c d : UInt8) : Option Nat := do
  let a ← digitValue a
  let b ← digitValue b
  let c ← digitValue c
  let d ← digitValue d
  pure (((a * 16 + b) * 16 + c) * 16 + d)

/-- The character at the front of a text. -/
def nextCharacter : List UInt8 → Option (Character × List UInt8)
  | 92 :: 117 :: a :: b :: c :: d :: rest =>
      (fourDigits a b c d).map fun n => (.unit n, rest)
  | 92 :: letter :: rest => (escapes.lookup letter).map fun b => (.byte b, rest)
  | b :: rest => if 32 ≤ b ∧ b ≠ 34 ∧ b ≠ 92 then some (.byte b, rest) else none
  | [] => none

/-- The reader of characters. -/
def characterReader : Reader UInt8 Character where
  next := nextCharacter
  shorter := by
    intro text item rest h
    unfold nextCharacter at h
    split at h
    · obtain ⟨n, -, hn⟩ := Option.map_eq_some_iff.mp h
      cases hn
      simp only [List.length_cons]
      omega
    · obtain ⟨b, -, hb⟩ := Option.map_eq_some_iff.mp h
      cases hb
      simp only [List.length_cons]
      omega
    · obtain ⟨-, hb⟩ := Option.ite_none_right_eq_some.mp h
      cases hb
      exact Nat.lt_succ_self _
    · cases h

/-- The literal at the front of a text: its characters, and the text behind its closing mark. -/
def readLiteral : List UInt8 → Option (List Character × List UInt8)
  | 34 :: text =>
      match characterReader.read text with
      | (characters, 34 :: rest) => some (characters, rest)
      | _ => none
  | _ => none

/-- The UTF-8 bytes of a scalar value. -/
def utf8 (n : Nat) : List UInt8 := String.utf8EncodeChar (Char.ofNat n)

/-- The unit opens a surrogate pair. -/
def IsHigh (n : Nat) : Prop := 0xD800 ≤ n ∧ n < 0xDC00

/-- The unit closes a surrogate pair. -/
def IsLow (n : Nat) : Prop := 0xDC00 ≤ n ∧ n < 0xE000

instance (n : Nat) : Decidable (IsHigh n) := inferInstanceAs (Decidable (_ ∧ _))

instance (n : Nat) : Decidable (IsLow n) := inferInstanceAs (Decidable (_ ∧ _))

/-- The bytes that the characters of a literal stand for. A surrogate pair stands for one scalar
value; a surrogate that is not part of a pair stands for nothing. -/
def decode : List Character → Option (List UInt8)
  | [] => some []
  | .byte b :: rest => (decode rest).map (b :: ·)
  | .unit n :: rest =>
      if IsHigh n then
        match rest with
        | .unit low :: rest =>
            if IsLow low then
              (decode rest).map (utf8 (0x10000 + (n - 0xD800) * 0x400 + (low - 0xDC00)) ++ ·)
            else none
        | _ => none
      else if IsLow n then none
      else (decode rest).map (utf8 n ++ ·)

/-- A literal is read when its characters are taken apart up to the closing mark. -/
theorem readLiteral_of_read {text rest : List UInt8} {characters : List Character}
    (h : characterReader.read text = (characters, 34 :: rest)) :
    readLiteral (34 :: text) = some (characters, rest) := by
  rw [readLiteral, h]
  rfl

/-- No character starts at the closing mark. -/
theorem next_of_mark (rest : List UInt8) : nextCharacter (34 :: rest) = none := by
  rw [nextCharacter] <;> simp

/-- A byte that needs no escape is read as itself. -/
theorem next_of_plain {b : UInt8} (hprintable : 32 ≤ b) (hmark : b ≠ 34) (hescape : b ≠ 92)
    (rest : List UInt8) : nextCharacter (b :: rest) = some (.byte b, rest) := by
  rw [nextCharacter]
  · exact if_pos ⟨hprintable, hmark, hescape⟩
  · exact fun _ _ _ _ _ h => absurd h hescape
  · exact fun _ _ h => absurd h hescape

/-- A unit below the surrogates stands for a scalar value of its own. -/
theorem decode_unit {n : Nat} (h : n < 0xD800) (rest : List Character) :
    decode (.unit n :: rest) = (decode rest).map (utf8 n ++ ·) := by
  have hhigh : ¬ IsHigh n := fun hhigh => Nat.not_le.mpr h hhigh.1
  have hlow : ¬ IsLow n := fun hlow => Nat.not_le.mpr h (Nat.le_trans (by decide) hlow.1)
  rw [decode.eq_def]
  exact (if_neg hhigh).trans (if_neg hlow)

/-- A byte below `0x80` is a scalar value. -/
theorem utf8_of_byte {b : UInt8} (h : b < 128) : utf8 b.toNat = [b] := by
  have hsmall : b.toNat < 128 := h
  have hchar : (Char.ofNat b.toNat).toNat = b.toNat := by
    rw [Char.ofNat, dif_pos (Or.inl (by omega))]
    rfl
  have hvalue : (Char.ofNat b.toNat).val.toNat = b.toNat := hchar
  rw [utf8, String.utf8EncodeChar, hvalue, if_pos (by omega), UInt8.ofNat_toNat]

/-- Characters that stand for a byte each stand for these bytes. -/
theorem decode_map {character : UInt8 → Character} {s : List UInt8}
    (h : ∀ b ∈ s, ∀ rest, decode (character b :: rest) = (decode rest).map (b :: ·)) :
    decode (s.map character) = some s := by
  induction s with
  | nil => rfl
  | cons b s ih =>
      rw [List.map_cons, h b List.mem_cons_self, ih fun c hc => h c (List.mem_cons_of_mem _ hc),
        Option.map_some]

end Dvws.Codec.Json
