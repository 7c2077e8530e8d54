import Dvws.Base64.Decoding
import Dvws.Base64.Encoding

/-!
# Encoding and decoding are inverse

The decoder fills a block as well, one cell longer than its result. `decode_in_memory_eq` connects
the loop over this block with the bytes that `base64Decode` returns: it stores inside the block,
and all of it but the last cell. With what encoder and decoder say about spellings, each undoes
the other (`encode_decode_inverse`).
-/

namespace Dvws.Base64

open Memory

/-- `if (j < *output_length) decoded_data[j++] = value;`, with the block and `j`. -/
def storeBelow (outputLength : Nat) (target : Block UInt8 × Nat) (value : UInt8) :
    Except Fault (Block UInt8 × Nat) :=
  if target.2 < outputLength then do
    let block ← store target.1 target.2 value
    pure (block, target.2 + 1)
  else pure target

/-- The decoding loop, with the block and `j`. -/
def decodeFrom (outputLength : Nat) (target : Block UInt8 × Nat) :
    Bytes → Except Fault (Block UInt8 × Nat)
  | a :: b :: c :: d :: rest => do
      let target ← (decodeQuad a b c d).foldlM (storeBelow outputLength) target
      decodeFrom outputLength target rest
  | _ => pure target

/-- `base64_decode(data, data.length(), &output_length)`: the block and the output length, or
`none` for a null pointer. -/
def decodeInMemory (malloc : Nat → Bool) (data : Bytes) :
    Except Fault (Option (Block UInt8 × Nat)) :=
  if data.length % 4 ≠ 0 then pure none
  else if malloc (decodedLength data + 1) then do
    let (block, _) ← decodeFrom (decodedLength data) (fresh (decodedLength data + 1), 0) data
    pure (some (block, decodedLength data))
  else pure none

/-- The loop stores the bytes of all groups one after another. -/
theorem decode_from_eq (outputLength : Nat) (target : Block UInt8 × Nat) (data : Bytes) :
    decodeFrom outputLength target data =
      (decodeQuads data).foldlM (storeBelow outputLength) target := by
  fun_induction decodeQuads data generalizing target with
  | case1 a b c d rest ih =>
      rw [decodeFrom, List.foldlM_append]
      congr 1
      funext next
      exact ih next
  | case2 data hshort =>
      rw [decodeFrom.eq_2 _ _ _ hshort]
      rfl

/-- The block and `j` after the first bytes were stored. -/
def written (outputLength : Nat) (values : Bytes) : Block UInt8 × Nat :=
  (filled values ++ fresh (outputLength + 1 - values.length), values.length)

/-- A guarded store adds a byte while there are not enough. -/
theorem store_below_room {outputLength : Nat} {values : Bytes} (h : values.length < outputLength)
    (value : UInt8) :
    storeBelow outputLength (written outputLength values) value =
      .ok (written outputLength (values ++ [value])) := by
  obtain ⟨room, hmore⟩ : ∃ room, outputLength + 1 - values.length = room + 1 :=
    ⟨outputLength - values.length, by omega⟩
  have hleft : outputLength + 1 - (values.length + 1) = room := by omega
  have hstore := store_append (filled values) none (fresh room) value
  have hindex : (written outputLength values).2 = values.length := rfl
  rw [filled, List.length_map, ← filled] at hstore
  rw [storeBelow, hindex, if_pos h]
  unfold written
  rw [hmore, List.length_append, List.length_singleton, hleft]
  show store (filled values ++ none :: fresh room) values.length value >>= _ = _
  rw [hstore, bind_fault]
  simp [filled]

/-- A guarded store does nothing when the block is full. -/
theorem store_below_full {outputLength : Nat} {values : Bytes} (h : outputLength ≤ values.length)
    (value : UInt8) :
    storeBelow outputLength (written outputLength values) value =
      .ok (written outputLength values) := by
  have hindex : (written outputLength values).2 = values.length := rfl
  rw [storeBelow, hindex, if_neg (Nat.not_lt.mpr h)]
  rfl

/-- Guarded stores add bytes until there are enough. -/
theorem store_all_below_written (outputLength : Nat) (values more : Bytes) :
    more.foldlM (storeBelow outputLength) (written outputLength values) =
      .ok (written outputLength (values ++ more.take (outputLength - values.length))) := by
  induction more generalizing values with
  | nil => simp
  | cons value more ih =>
      rw [List.foldlM_cons]
      by_cases hroom : values.length < outputLength
      · have hleft : outputLength - values.length = outputLength - (values.length + 1) + 1 := by
          omega
        rw [store_below_room hroom, bind_fault, ih, List.length_append, List.length_singleton,
          hleft, List.take_succ_cons, List.append_assoc]
        rfl
      · have hnone : outputLength - values.length = 0 := by omega
        rw [store_below_full (by omega), bind_fault, ih, hnone, List.take_zero, List.take_zero]

/-- The loop gives three bytes for every group of four characters. -/
theorem length_decode_quads (data : Bytes) : (decodeQuads data).length = data.length / 4 * 3 := by
  fun_induction decodeQuads data with
  | case1 a b c d rest ih =>
      rw [List.length_append, ih]
      simp only [decodeQuad, List.length_cons, List.length_nil]
      omega
  | case2 data hshort =>
      have hlength : data.length < 4 := by
        by_contra hlong
        match data with
        | a :: b :: c :: d :: rest => exact hshort a b c d rest rfl
        | [_, _, _] | [_, _] | [_] | [] => simp at hlong
      rw [List.length_nil]
      omega

/-- The result has the length that the decoder reports. -/
theorem length_decoded (data : Bytes) : (decoded data).length = decodedLength data := by
  rw [decoded, List.length_take, length_decode_quads, Nat.min_eq_left]
  unfold decodedLength
  omega

/-- In a block of memory the decoder writes the bytes that it returns; one cell is left. -/
theorem decode_in_memory_eq (malloc : Nat → Bool) (data : Bytes) :
    decodeInMemory malloc data =
      .ok ((base64Decode malloc data).map fun x => (filled x ++ fresh 1, x.length)) := by
  unfold decodeInMemory base64Decode
  split
  · rfl
  · split
    · have hloop := store_all_below_written (decodedLength data) [] (decodeQuads data)
      have hstart : written (decodedLength data) [] = (fresh (decodedLength data + 1), 0) := rfl
      rw [List.nil_append, List.length_nil, Nat.sub_zero, hstart, ← decoded] at hloop
      have hlast : decodedLength data + 1 - decodedLength data = 1 := by omega
      rw [decode_from_eq, hloop, bind_fault]
      unfold written
      rw [length_decoded, hlast, ← decoded, Option.map_some, length_decoded]
      rfl
    · rfl

/-- A spelling has four characters for every three bytes that are begun. -/
theorem length_spelling (data : Bytes) :
    (spelling data).length = 4 * ((data.length + 2) / 3) := by
  have hpadding := padding_le data
  have hlength := length_encode_groups data
  rw [spelling, List.length_append, List.length_take, List.length_replicate]
  omega

/-- What is encoded, in a block that is written in every cell, is decoded again; and a canonical
text is what its bytes are encoded to. -/
theorem encode_decode_inverse (malloc : Nat → Bool) :
    (∀ x : Bytes, malloc (4 * ((x.length + 2) / 3)) = true → malloc (x.length + 1) = true →
      ∃ s, base64Encode malloc x = .ok (some (filled s)) ∧
        s.length = 4 * ((x.length + 2) / 3) ∧
        decodeInMemory malloc s = .ok (some (filled x ++ fresh 1, x.length))) ∧
    ∀ s : Bytes, Canonical s → malloc (decodedLength s + 1) = true → malloc s.length = true →
      ∃ x, decodeInMemory malloc s = .ok (some (filled x ++ fresh 1, x.length)) ∧
        base64Encode malloc x = .ok (some (filled s)) := by
  constructor
  · intro x hencode hdecode
    refine ⟨spelling x, base64_encode_eq hencode, length_spelling x, ?_⟩
    rw [decode_in_memory_eq, decode_of_spells (spells_spelling x) hdecode, Option.map_some]
  · intro s hs hdecode hencode
    have hspells := spells_decoded hs.wellFormed
    have hsame : s = spelling (decoded s) :=
      hspells.canonical_unique hs (canonical_spelling _) (spells_spelling _)
    refine ⟨decoded s, ?_, ?_⟩
    · rw [decode_in_memory_eq, decode_of_groups hs.wellFormed.groups hdecode, Option.map_some]
    · have hlength := length_spelling (decoded s)
      rw [← hsame] at hlength
      rw [base64_encode_eq (by rwa [← hlength]), ← hsame]

/-- Two bytes and their padded text are encoded and decoded into each other. -/
theorem encode_decode_inverse_pair :
    (∃ s, base64Encode (fun _ => true) (lit "Ma") = .ok (some (filled s)) ∧ s.length = 4 ∧
      decodeInMemory (fun _ => true) s = .ok (some (filled (lit "Ma") ++ fresh 1, 2))) ∧
    ∃ x, decodeInMemory (fun _ => true) (lit "TWE=") =
        .ok (some (filled x ++ fresh 1, x.length)) ∧
      base64Encode (fun _ => true) x = .ok (some (filled (lit "TWE="))) :=
  ⟨(encode_decode_inverse fun _ => true).1 (lit "Ma") rfl rfl,
    (encode_decode_inverse fun _ => true).2 (lit "TWE=") (canonical_spelling (lit "Ma")) rfl rfl⟩

end Dvws.Base64
