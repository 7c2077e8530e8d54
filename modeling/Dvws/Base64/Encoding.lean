import Dvws.Base64.Spelling
import Dvws.Memory.Block

/-!
# What the encoder writes

`base64_encode` of `base64.cpp` fills an allocated block: four characters for every three bytes,
with zeros for the bytes that are missing at the end, and then `=` over the characters that write
only such zeros. Every store lies inside the block and every cell of it is written
(`base64_encode_eq`); what it then holds is the canonical spelling of the bytes
(`canonical_spelling`, `spells_spelling`).
-/

namespace Dvws.Base64

open Codec Memory

/-- `encoding_table[n & 0x3F]`. -/
def character (n : Nat) : UInt8 := encodingTable.getD (n % 64) 0

/-- `triple`, which has at most 24 bits. -/
def tripleOf (a b c : UInt8) : Nat := a.toNat * 2 ^ 16 + b.toNat * 2 ^ 8 + c.toNat

/-- The four characters of three bytes. -/
def encodeTriple (a b c : UInt8) : Bytes :=
  let triple := tripleOf a b c
  [character (triple / 2 ^ 18), character (triple / 2 ^ 12), character (triple / 2 ^ 6),
    character triple]

/-- The encoding loop from `j` on; a byte behind the end of the data counts as zero. -/
def encodeFrom (block : Block UInt8) (j : Nat) : Bytes → Except Fault (Block UInt8)
  | [] => pure block
  | [a] => storeAll block j (encodeTriple a 0 0)
  | [a, b] => storeAll block j (encodeTriple a b 0)
  | a :: b :: c :: rest => do
      let block ← storeAll block j (encodeTriple a b c)
      encodeFrom block (j + 4) rest

/-- `mod_table`. -/
def modTable : List Nat := [0, 2, 1]

/-- The loop that writes the padding. -/
def writePadding (outputLength count : Nat) (block : Block UInt8) : Except Fault (Block UInt8) :=
  (List.range count).foldlM (fun block i => store block (outputLength - 1 - i) 61) block

/-- `base64_encode(data, data.length(), &output_length)`: the block with the characters, or `none`
for a null pointer. -/
def base64Encode (malloc : Nat → Bool) (data : Bytes) : Except Fault (Option (Block UInt8)) :=
  let outputLength := 4 * ((data.length + 2) / 3)
  if malloc outputLength then do
    let block ← encodeFrom (fresh outputLength) 0 data
    let block ← writePadding outputLength (modTable.getD (data.length % 3) 0) block
    pure (some block)
  else pure none

/-! ## The loops -/

/-- The characters that the loop writes. -/
def encodeGroups : Bytes → Bytes
  | [] => []
  | [a] => encodeTriple a 0 0
  | [a, b] => encodeTriple a b 0
  | a :: b :: c :: rest => encodeTriple a b c ++ encodeGroups rest

/-- The canonical spelling of bytes: their characters, the last of them replaced by padding. -/
def spelling (data : Bytes) : Bytes :=
  let padding := modTable.getD (data.length % 3) 0
  (encodeGroups data).take (4 * ((data.length + 2) / 3) - padding) ++ List.replicate padding 61

/-- The loop writes four characters for every three bytes that are begun. -/
theorem length_encode_groups (data : Bytes) :
    (encodeGroups data).length = 4 * ((data.length + 2) / 3) := by
  fun_induction encodeGroups data with
  | case1 => rfl
  | case2 a => simp [encodeTriple]
  | case3 a b => simp [encodeTriple]
  | case4 a b c rest ih =>
      rw [List.length_append, ih, List.length_cons, List.length_cons, List.length_cons]
      show 4 + _ = _
      omega

/-- The loop fills the block with its characters. -/
theorem encode_from_append (front rest : Block UInt8) {data : Bytes}
    (h : (encodeGroups data).length ≤ rest.length) :
    encodeFrom (front ++ rest) front.length data =
      .ok (front ++ filled (encodeGroups data) ++ rest.drop (encodeGroups data).length) := by
  fun_induction encodeGroups data generalizing front rest with
  | case1 => simp [encodeFrom, filled]
  | case2 a => exact store_all_append front rest h
  | case3 a b => exact store_all_append front rest h
  | case4 a b c tail ih =>
      have hfour : (encodeTriple a b c).length = 4 := rfl
      rw [List.length_append, hfour] at h
      have hnext := ih (front ++ filled (encodeTriple a b c)) (rest.drop 4)
        (by rw [List.length_drop]; omega)
      have hlength : (front ++ filled (encodeTriple a b c)).length = front.length + 4 := by
        simp [filled, hfour]
      rw [hlength] at hnext
      rw [encodeFrom, store_all_append front rest (by omega), bind_fault, hfour, hnext,
        List.drop_drop, List.length_append, hfour]
      simp [filled]

/-- The padding loop overwrites the last cells and no other. -/
theorem write_padding_filled (values : Bytes) {count : Nat} (h : count ≤ values.length) :
    writePadding values.length count (filled values) =
      .ok (filled (values.take (values.length - count) ++ List.replicate count 61)) := by
  induction count with
  | zero => simp [writePadding]
  | succ count ih =>
      obtain ⟨kept, hkept⟩ : ∃ kept, values.length - count = kept + 1 :=
        ⟨values.length - count - 1, by omega⟩
      have hcell : values.length - 1 - count = kept := by omega
      have hbound : kept < values.length := by omega
      have hfront : (filled (values.take kept)).length = kept := by
        rw [filled, List.length_map, List.length_take_of_le hbound.le]
      have hblock : filled (values.take (kept + 1) ++ List.replicate count 61) =
          filled (values.take kept) ++ some values[kept] :: filled (List.replicate count 61) := by
        rw [List.take_succ_eq_append_getElem hbound, filled, List.map_append, List.map_append,
          List.append_assoc]
        rfl
      have hstore := store_append (filled (values.take kept)) (some values[kept])
        (filled (List.replicate count 61)) 61
      rw [hfront, ← hblock] at hstore
      have hnext : values.length - (count + 1) = kept := by omega
      rw [hkept] at ih
      rw [writePadding, List.range_succ, List.foldlM_append, ← writePadding, ih (by omega),
        bind_fault, List.foldlM_cons, hcell, hstore, hnext]
      simp [filled, List.replicate_succ]

/-- There is no more padding than characters. -/
theorem padding_le (data : Bytes) :
    modTable.getD (data.length % 3) 0 ≤ 4 * ((data.length + 2) / 3) := by
  have hcases : data.length % 3 = 0 ∨ data.length % 3 = 1 ∨ data.length % 3 = 2 := by omega
  obtain h | h | h := hcases <;> rw [h]
  · exact Nat.zero_le _
  · show 2 ≤ _
    omega
  · show 1 ≤ _
    omega

/-- In a block of memory the encoder writes the spelling, all of it and nothing else. -/
theorem base64_encode_eq {malloc : Nat → Bool} {data : Bytes}
    (hmalloc : malloc (4 * ((data.length + 2) / 3)) = true) :
    base64Encode malloc data = .ok (some (filled (spelling data))) := by
  have hlength := length_encode_groups data
  have hroom : (encodeGroups data).length ≤
      (fresh (β := UInt8) (4 * ((data.length + 2) / 3))).length := by
    rw [hlength, fresh, List.length_replicate]
  have hloop := encode_from_append [] (fresh (4 * ((data.length + 2) / 3))) hroom
  have hrest : (fresh (β := UInt8) (4 * ((data.length + 2) / 3))).drop (encodeGroups data).length =
      [] := by
    rw [hlength, fresh, List.drop_replicate, Nat.sub_self, List.replicate_zero]
  have hcount : modTable.getD (data.length % 3) 0 ≤ (encodeGroups data).length := by
    rw [hlength]
    exact padding_le data
  have hpadding := write_padding_filled (encodeGroups data) hcount
  rw [hrest, List.append_nil] at hloop
  rw [hlength] at hpadding
  unfold base64Encode
  dsimp only
  rw [if_pos hmalloc]
  show (encodeFrom ([] ++ fresh _) ([] : Block UInt8).length data >>= _) = _
  rw [hloop, bind_fault, List.nil_append, hpadding]
  rfl

/-! ## The spelling -/

/-- A character that is written is one of the alphabet. -/
theorem decoding_table_character (n : Nat) : decodingTable (character n) = n % 64 := by
  have hlt : n % 64 < 64 := Nat.mod_lt n (by decide)
  rw [decoding_table_eq_iff hlt, character, List.getD_eq_getElem?_getD,
    List.getElem?_eq_getElem (by rw [length_encoding_table]; exact hlt), Option.getD_some]

theorem is_digit_character (n : Nat) : IsDigit (character n) := by
  rw [is_digit_iff, decoding_table_character]
  exact Nat.mod_lt n (by decide)

/-- A character writes the lowest six bits of its number. -/
theorem text_bits_character (n : Nat) (s : Bytes) :
    textBits (character n :: s) = bits 6 n ++ textBits s := by
  rw [text_bits_cons (is_digit_character n), decoding_table_character]
  exact congrArg (· ++ textBits s) (bits_mod 6 n)

/-- The spelling goes through the bytes by three. -/
theorem spelling_cons (a b c : UInt8) (rest : Bytes) :
    spelling (a :: b :: c :: rest) = encodeTriple a b c ++ spelling rest := by
  have hmod : (a :: b :: c :: rest).length % 3 = rest.length % 3 := by
    simp only [List.length_cons]
    omega
  have hcount : 4 * (((a :: b :: c :: rest).length + 2) / 3) =
      (encodeTriple a b c).length + 4 * ((rest.length + 2) / 3) := by
    simp only [List.length_cons, encodeTriple, List.length_nil]
    omega
  unfold spelling
  dsimp only
  rw [hmod, hcount, encodeGroups, Nat.add_sub_assoc (padding_le rest),
    List.take_length_add_append, List.append_assoc]

/-- The characters of three bytes write their bits. -/
theorem text_bits_encode_triple (a b c : UInt8) (s : Bytes) :
    textBits (encodeTriple a b c ++ s) = dataBits [a, b, c] ++ textBits s := by
  have htriple : bits 24 (tripleOf a b c) = dataBits [a, b, c] := by
    have hvalue : tripleOf a b c = (a.toNat * 2 ^ 8 + b.toNat) * 2 ^ 8 + c.toNat := by
      unfold tripleOf
      omega
    rw [hvalue, show 24 = 8 + 8 + 8 from rfl, bits_concat _ _ c.toNat_lt,
      bits_concat _ _ b.toNat_lt, List.append_assoc]
    simp [dataBits]
  have hsextets : bits 24 (tripleOf a b c) = bits 6 (tripleOf a b c / 2 ^ 18) ++
      (bits 6 (tripleOf a b c / 2 ^ 12) ++
        (bits 6 (tripleOf a b c / 2 ^ 6) ++ bits 6 (tripleOf a b c))) := by
    rw [show 24 = 6 + (6 + (6 + 6)) from rfl, bits_add, bits_add, bits_add]
  rw [← htriple, hsextets]
  simp [encodeTriple, text_bits_character]

theorem spelling_one (a : UInt8) : spelling [a] =
    [character (tripleOf a 0 0 / 2 ^ 18), character (tripleOf a 0 0 / 2 ^ 12), 61, 61] := by
  simp [spelling, encodeGroups, encodeTriple, modTable]

theorem spelling_two (a b : UInt8) : spelling [a, b] =
    [character (tripleOf a b 0 / 2 ^ 18), character (tripleOf a b 0 / 2 ^ 12),
      character (tripleOf a b 0 / 2 ^ 6), 61] := by
  simp [spelling, encodeGroups, encodeTriple, modTable]

/-- A spelling is a well-formed text that writes the bits of the bytes, and some zeros. -/
theorem spelling_spec (data : Bytes) :
    Grouped (spelling data) ∧
      ∃ zeros < 8, textBits (spelling data) = dataBits data ++ List.replicate zeros false := by
  match data with
  | [] => exact ⟨.nil, 0, by decide, rfl⟩
  | [a] =>
      rw [spelling_one]
      refine ⟨.two (is_digit_character _) (is_digit_character _), 4, by decide, ?_⟩
      have hvalue : tripleOf a 0 0 / 2 ^ 12 = a.toNat * 2 ^ 4 + 0 := by
        simp only [tripleOf, UInt8.toNat_zero]
        omega
      have hhigh : tripleOf a 0 0 / 2 ^ 18 = tripleOf a 0 0 / 2 ^ 12 / 2 ^ 6 := by omega
      have hdata : bits (8 + 4) (a.toNat * 2 ^ 4 + 0) = dataBits [a] ++ List.replicate 4 false := by
        rw [bits_concat _ _ (by decide), bits_zero]
        simp [dataBits]
      rw [text_bits_character, text_bits_character, text_bits_padding, List.append_nil, hhigh,
        ← bits_add, hvalue]
      exact hdata
  | [a, b] =>
      rw [spelling_two]
      refine ⟨.three (is_digit_character _) (is_digit_character _) (is_digit_character _), 2,
        by decide, ?_⟩
      have hvalue : tripleOf a b 0 / 2 ^ 6 = (a.toNat * 2 ^ 8 + b.toNat) * 2 ^ 2 + 0 := by
        simp only [tripleOf, UInt8.toNat_zero]
        omega
      have hmiddle : tripleOf a b 0 / 2 ^ 12 = tripleOf a b 0 / 2 ^ 6 / 2 ^ 6 := by omega
      have hhigh : tripleOf a b 0 / 2 ^ 18 = tripleOf a b 0 / 2 ^ 6 / 2 ^ (6 + 6) := by omega
      have hdata : bits (8 + 8 + 2) ((a.toNat * 2 ^ 8 + b.toNat) * 2 ^ 2 + 0) =
          dataBits [a, b] ++ List.replicate 2 false := by
        rw [bits_concat _ _ (by decide), bits_concat _ _ b.toNat_lt, bits_zero]
        simp [dataBits]
      rw [text_bits_character, text_bits_character, text_bits_character, text_bits_padding,
        List.append_nil, hhigh, hmiddle, ← bits_add, ← bits_add, hvalue]
      exact hdata
  | a :: b :: c :: rest =>
      obtain ⟨hgrouped, zeros, hzeros, hbits⟩ := spelling_spec rest
      rw [spelling_cons]
      refine ⟨.quad (is_digit_character _) (is_digit_character _) (is_digit_character _)
        (is_digit_character _) hgrouped, zeros, hzeros, ?_⟩
      rw [text_bits_encode_triple, hbits, ← List.append_assoc, ← data_bits_append]
      rfl

/-- A spelling spells its bytes. -/
theorem spells_spelling (data : Bytes) : Spells (spelling data) data := by
  obtain ⟨hgrouped, zeros, hzeros, hbits⟩ := spelling_spec data
  exact ⟨hgrouped.wellFormed, List.replicate zeros false, by simpa using hzeros, hbits⟩

/-- A spelling is canonical. -/
theorem canonical_spelling (data : Bytes) : Canonical (spelling data) := by
  obtain ⟨hgrouped, zeros, hzeros, hbits⟩ := spelling_spec data
  refine ⟨hgrouped.wellFormed, fun bit hbit => ?_⟩
  rw [← (spells_spelling data).length_eq, ← length_data_bits, hbits, List.drop_left] at hbit
  exact List.eq_of_mem_replicate hbit

end Dvws.Base64
