import Dvws.Base64.Inverse
import Dvws.Effect.Traced
import Dvws.Utils

/-!
# Where the decoder reads and writes

`base64_decode` looks for padding at `input_length - 1` and `input_length - 2` before it looks at
anything else, and `size_t` numbers wrap around. Here it records every index that it reads or
writes and every decrement of `*output_length`; what it reads outside the input is whatever is
there. On a text that is not empty it stays in bounds and computes what `base64Decode` does
(`decode_agrees`); on the empty text the first thing it does is to read in front of it
(`decode_in_bounds_iff`).
-/

namespace Dvws.Base64

open Effect

/-- What is done with an index or with the output length. -/
inductive Access where
  /-- the index is read in an input of this length -/
  | read (length index : Nat)
  /-- the output length is decremented -/
  | decrement (outputLength : Nat)
  /-- the index is written in an allocation of this size -/
  | write (size index : Nat)
  deriving DecidableEq, Repr

/-- The index lies inside; the output length does not wrap around. -/
def Access.InBounds : Access → Prop
  | .read length index => index < length
  | .decrement outputLength => 0 < outputLength
  | .write size index => index < size

/-- A computation that records its accesses, and throws nothing. -/
abbrev Accessing (α : Type) := Traced Access Empty α

/-- `data[i]`; `outside` is what stands around the input. -/
def readAt (outside : Nat → UInt8) (data : Bytes) (i : Nat) : Accessing UInt8 := do
  emit (.read data.length i)
  pure (data.getD i (outside i))

/-- `if (data[input_length - back] == '=') (*output_length)--;` -/
def probe (outside : Nat → UInt8) (data : Bytes) (back outputLength : Nat) : Accessing Nat := do
  let c ← readAt outside data (sizeSub data.length back)
  if c = 61 then do
    emit (.decrement outputLength)
    pure (sizeSub outputLength 1)
  else pure outputLength

/-- The character of `data[i] == '=' ? 0 & i++ : decoding_table[data[i++]]`. -/
def readCharacter (outside : Nat → UInt8) (data : Bytes) (i : Nat) : Accessing UInt8 := do
  let c ← readAt outside data i
  if c = 61 then pure c else readAt outside data i

/-- `if (j < *output_length) decoded_data[j++] = value;`, where `out` is what was written so far. -/
def writeBelow (outputLength : Nat) (out : Bytes) (value : UInt8) : Accessing Bytes :=
  if out.length < outputLength then do
    emit (.write (sizeAdd outputLength 1) out.length)
    pure (out ++ [value])
  else pure out

/-- The decoding loop from `i` on. -/
def decodeLoop (outside : Nat → UInt8) (data : Bytes) (outputLength i : Nat) (out : Bytes) :
    Accessing Bytes :=
  if i < data.length then do
    let a ← readCharacter outside data i
    let b ← readCharacter outside data (i + 1)
    let c ← readCharacter outside data (i + 2)
    let d ← readCharacter outside data (i + 3)
    let out ← (decodeQuad a b c d).foldlM (writeBelow outputLength) out
    decodeLoop outside data outputLength (i + 4) out
  else pure out
termination_by data.length - i

/-- `base64_decode(data, data.length(), &output_length)`: the bytes written and the output length,
or `none` for a null pointer. -/
def decodeAccessing (malloc : Nat → Bool) (outside : Nat → UInt8) (data : Bytes) :
    Accessing (Option (Bytes × Nat)) :=
  if data.length % 4 ≠ 0 then pure none
  else do
    let outputLength ← probe outside data 1 (data.length / 4 * 3)
    let outputLength ← probe outside data 2 outputLength
    if malloc (sizeAdd outputLength 1) then do
      let out ← decodeLoop outside data outputLength 0 []
      pure (some (out, outputLength))
    else pure none

/-- What `extract_username_password` does with it up to `decoded_credentials[decode_length] = 0`. -/
def terminated (malloc : Nat → Bool) (outside : Nat → UInt8) (data : Bytes) :
    Accessing (Option Bytes) := do
  let decoded ← decodeAccessing malloc outside data
  match decoded with
  | none => pure none
  | some (out, outputLength) =>
      if outputLength = 0 then pure none
      else do
        emit (.write (sizeAdd outputLength 1) outputLength)
        pure (some out)

section

variable {outside : Nat → UInt8} {data : Bytes} {i : Nat} {c : UInt8}

/-- A read inside the input stays in bounds and gives the byte there. -/
theorem read_at_agrees (h : data[i]? = some c) :
    Agrees Access.InBounds (readAt outside data i) (.ok c) := by
  have hread : data.getD i (outside i) = c := by rw [List.getD_eq_getElem?_getD, h]; rfl
  have hbound : Access.InBounds (.read data.length i) := (List.getElem?_eq_some_iff.mp h).1
  rw [← hread]
  exact .bind (.emit hbound) (.pure _)

/-- A character read inside the input stays in bounds and is the byte there. -/
theorem read_character_agrees (h : data[i]? = some c) :
    Agrees Access.InBounds (readCharacter outside data i) (.ok c) := by
  refine .bind (read_at_agrees h) ?_
  split
  · exact .pure c
  · exact read_at_agrees h

/-- A probe for padding inside the input stays in bounds and takes one off when it finds a `=`. -/
theorem probe_agrees {back outputLength : Nat} (hback : 0 < back) (hle : back ≤ data.length)
    (hlength : data.length < 2 ^ 64) (hpos : 0 < outputLength) (hsize : outputLength < 2 ^ 64) :
    Agrees Access.InBounds (probe outside data back outputLength)
      (.ok (outputLength - if data[data.length - back]? = some 61 then 1 else 0)) := by
  have hbound : data.length - back < data.length := by omega
  unfold probe
  rw [size_sub_eq hle hlength, List.getElem?_eq_getElem hbound]
  refine .bind (read_at_agrees (List.getElem?_eq_getElem hbound)) ?_
  by_cases hpad : data[data.length - back] = 61
  · rw [if_pos hpad, if_pos (congrArg some hpad), size_sub_eq hpos hsize]
    exact .bind (.emit hpos) (.pure _)
  · rw [if_neg hpad, if_neg fun h => hpad (Option.some.inj h)]
    exact .pure _

/-- A guarded write stays inside the allocation. -/
theorem write_below_agrees {outputLength : Nat} {out : Bytes} (hout : out.length ≤ outputLength)
    (hsize : outputLength + 1 < 2 ^ 64) (value : UInt8) :
    Agrees Access.InBounds (writeBelow outputLength out value)
      (.ok ((out ++ [value]).take outputLength)) := by
  unfold writeBelow
  split
  · rename_i hroom
    have hbound : Access.InBounds (.write (sizeAdd outputLength 1) out.length) := by
      rw [size_add_eq hsize]
      exact Nat.lt_succ_of_lt hroom
    have hwhole : (out ++ [value]).length ≤ outputLength := by
      rw [List.length_append, List.length_singleton]
      exact hroom
    rw [List.take_of_length_le hwhole]
    exact .bind (.emit hbound) (.pure _)
  · rename_i hfull
    rw [show outputLength = out.length by omega, List.take_left]
    exact .pure out

/-- What is cut off in front is cut off in the whole. -/
theorem take_take_append (n : Nat) (front more : Bytes) :
    (front.take n ++ more).take n = (front ++ more).take n := by
  rw [List.take_append, List.take_append, List.take_take, Nat.min_self, List.length_take,
    show n - min n front.length = n - front.length by omega]

/-- Guarded writes one after another stay inside the allocation. -/
theorem write_all_below_agrees {outputLength : Nat} {out : Bytes}
    (hout : out.length ≤ outputLength) (hsize : outputLength + 1 < 2 ^ 64) (values : Bytes) :
    Agrees Access.InBounds (values.foldlM (writeBelow outputLength) out)
      (.ok ((out ++ values).take outputLength)) := by
  induction values generalizing out with
  | nil =>
      rw [List.append_nil, List.take_of_length_le hout]
      exact .pure out
  | cons value values ih =>
      have hnext := ih (List.length_take_le outputLength (out ++ [value]))
      rw [take_take_append, List.append_assoc, List.singleton_append] at hnext
      rw [List.foldlM_cons]
      exact .bind (write_below_agrees hout hsize value) hnext

/-- The loop reads the groups that are left and writes their bytes as long as there is room. -/
theorem decode_loop_agrees {outputLength : Nat} {rest out : Bytes} (hrest : data.drop i = rest)
    (hgroups : rest.length % 4 = 0) (hout : out.length ≤ outputLength)
    (hsize : outputLength + 1 < 2 ^ 64) :
    Agrees Access.InBounds (decodeLoop outside data outputLength i out)
      (.ok ((out ++ decodeQuads rest).take outputLength)) := by
  fun_induction decodeQuads rest generalizing i out with
  | case1 a b c d rest ih =>
      have hread (k : Nat) : data[i + k]? = (a :: b :: c :: d :: rest)[k]? := by
        rw [← hrest, List.getElem?_drop]
      have hnext : data.drop (i + 4) = rest := by rw [← List.drop_drop, hrest]; rfl
      have hlt : i < data.length := (List.getElem?_eq_some_iff.mp (hread 0)).1
      have hleft : rest.length % 4 = 0 := by
        simp only [List.length_cons] at hgroups
        omega
      rw [decodeLoop, if_pos hlt]
      refine .bind (read_character_agrees (hread 0)) (.bind (read_character_agrees (hread 1)) ?_)
      refine .bind (read_character_agrees (hread 2)) (.bind (read_character_agrees (hread 3)) ?_)
      refine .bind (write_all_below_agrees hout hsize _) ?_
      have hloop := ih hnext hleft (List.length_take_le outputLength (out ++ decodeQuad a b c d))
      rwa [take_take_append, List.append_assoc] at hloop
  | case2 rest hshort =>
      have hnil : rest = [] := by
        rcases rest with _ | ⟨a, _ | ⟨b, _ | ⟨c, _ | ⟨d, rest⟩⟩⟩⟩
        · rfl
        · simp at hgroups
        · simp at hgroups
        · simp at hgroups
        · exact absurd rfl (hshort a b c d rest)
      have hend : ¬ i < data.length := by
        rw [hnil] at hrest
        exact Nat.not_lt.mpr (List.drop_eq_nil_iff.mp hrest)
      rw [decodeLoop, if_neg hend, List.append_nil, List.take_of_length_le hout]
      exact .pure out

/-- A text in groups that is not empty has four characters and a result of at least one byte. -/
theorem decoded_length_bounds (hgroups : data.length % 4 = 0) (hne : data ≠ []) :
    4 ≤ data.length ∧ 3 ≤ data.length / 4 * 3 := by
  have hpos : 0 < data.length := List.length_pos_iff.mpr hne
  omega

/-- On a text that is not empty the decoder stays in bounds, and computes what `base64Decode`
does. -/
theorem decode_agrees (hlength : data.length < 2 ^ 64) (hne : data ≠ []) (malloc : Nat → Bool) :
    Agrees Access.InBounds (decodeAccessing malloc outside data)
      (.ok ((base64Decode malloc data).map fun out => (out, decodedLength data))) := by
  unfold decodeAccessing base64Decode
  split
  · exact .pure none
  · rename_i hlast
    have hgroups : data.length % 4 = 0 := not_not.mp hlast
    obtain ⟨hfour, hthree⟩ := decoded_length_bounds hgroups hne
    refine .bind (probe_agrees (by decide) (by omega) hlength (by omega) (by omega)) ?_
    refine .bind (probe_agrees (by decide) (by omega) hlength ?_ ?_) ?_
    · split <;> omega
    · split <;> omega
    have hdecoded : data.length / 4 * 3 - (if data[data.length - 1]? = some 61 then 1 else 0) -
        (if data[data.length - 2]? = some 61 then 1 else 0) = decodedLength data := rfl
    rw [hdecoded]
    have hsize : decodedLength data + 1 < 2 ^ 64 := by
      unfold decodedLength
      omega
    rw [size_add_eq hsize]
    split
    · refine .bind (decode_loop_agrees rfl (by simpa using hgroups) (Nat.zero_le _) hsize) ?_
      exact .pure _
    · exact .pure none

/-- With its terminator, `extract_username_password` stays in bounds on texts that are not empty. -/
theorem terminated_agrees (hlength : data.length < 2 ^ 64) (hne : data ≠ [])
    (malloc : Nat → Bool) :
    Agrees Access.InBounds (terminated malloc outside data)
      (.ok ((base64Decode malloc data).filter fun _ => decodedLength data ≠ 0)) := by
  refine .bind (decode_agrees hlength hne malloc) ?_
  cases base64Decode malloc data with
  | none => exact .pure none
  | some out =>
      dsimp only [Option.map_some]
      by_cases hzero : decodedLength data = 0
      · rw [if_pos hzero, Option.filter_some_neg (by simpa using hzero)]
        exact .pure none
      · have hsize : decodedLength data + 1 < 2 ^ 64 := by
          unfold decodedLength
          omega
        have hbound : Access.InBounds
            (.write (sizeAdd (decodedLength data) 1) (decodedLength data)) := by
          rw [size_add_eq hsize]
          exact Nat.lt_succ_self _
        rw [if_neg hzero, Option.filter_some_pos (by simpa using hzero)]
        exact .bind (.emit hbound) (.pure _)

end

/-- On the empty text the first thing that is read stands in front of it. -/
theorem read_before_empty (malloc : Nat → Bool) (outside : Nat → UInt8) :
    Access.read 0 (2 ^ 64 - 1) ∈ (terminated malloc outside [] ()).events := by
  have hread : Access.read 0 (2 ^ 64 - 1) ∈
      (readAt outside [] (sizeSub ([] : Bytes).length 1) ()).events := List.mem_singleton_self _
  unfold terminated decodeAccessing
  rw [if_neg (by decide)]
  exact mem_events_bind (mem_events_bind (mem_events_bind hread _) _) _

/-- The decoder stays in bounds, and its caller with the terminator. -/
def StaysInBounds (malloc : Nat → Bool) (outside : Nat → UInt8) (data : Bytes) : Prop :=
  ∀ access ∈ (terminated malloc outside data ()).events, access.InBounds

/-- The accesses of a decoding stay in bounds exactly on the texts that are not empty. -/
theorem decode_in_bounds_iff {data : Bytes} (hlength : data.length < 2 ^ 64)
    (malloc : Nat → Bool) (outside : Nat → UInt8) :
    StaysInBounds malloc outside data ↔ data ≠ [] := by
  constructor
  · rintro hbounds rfl
    exact Nat.not_lt_zero _ (hbounds _ (read_before_empty malloc outside))
  · intro hne
    exact (terminated_agrees hlength hne malloc).sound

/-- The decoding of a text with padding stays in bounds. -/
theorem decode_in_bounds_iff_padded :
    StaysInBounds (fun _ => true) (fun _ => 61) (lit "TQ==") :=
  (decode_in_bounds_iff (by decide) _ _).mpr (by decide)

/-- When nothing follows `Basic `, the decoding of the credentials leaves its bounds. -/
theorem decode_out_of_bounds_empty :
    extractHeaderValue (lit "GET /whoami HTTP/1.1\r\nAuthorization: Basic \r\n\r\n")
        (lit "Authorization:") = .ok (lit "Basic ") ∧
      substr (lit "Basic ") 6 none = .ok [] ∧
      ¬ StaysInBounds (fun _ => true) (fun _ => 0) [] := by
  refine ⟨by decide +kernel, by decide, fun hbounds => ?_⟩
  exact Nat.not_lt_zero _ (hbounds _ (read_before_empty _ _))

end Dvws.Base64
