import Dvws.Bytes

/-!
# Base64 decoding

`base64_decode` of `base64.cpp`. Arithmetic is that of `uint32_t`; a character outside the
alphabet has the table entry `-1`, which becomes `2^32 - 1`.
-/

namespace Dvws

/-- `encoding_table`. -/
def encodingTable : Bytes :=
  lit "ABCDEFGHIJKLMNOPQRSTUVWXYZabcdefghijklmnopqrstuvwxyz0123456789+/"

/-- `decoding_table[c]`, converted to `uint32_t`. -/
def decodingTable (c : UInt8) : Nat :=
  match encodingTable.idxOf? c with
  | some i => i
  | none => 2 ^ 32 - 1

/-- The value of one input character; padding counts as zero. -/
def sextet (c : UInt8) : Nat := if c = 61 then 0 else decodingTable c

/-- The three bytes of four input characters. -/
def decodeQuad (a b c d : UInt8) : Bytes :=
  let triple := (sextet a * 2 ^ 18 + sextet b * 2 ^ 12 + sextet c * 2 ^ 6 + sextet d) % 2 ^ 32
  [UInt8.ofNat (triple / 2 ^ 16 % 256), UInt8.ofNat (triple / 2 ^ 8 % 256),
    UInt8.ofNat (triple % 256)]

/-- The decoding loop, before the output is cut to its length. -/
def decodeQuads : Bytes → Bytes
  | a :: b :: c :: d :: rest => decodeQuad a b c d ++ decodeQuads rest
  | _ => []

/-- `*output_length`. For an empty input the two reads fall in front of the string, where
`std::string` keeps its length: they find zero bytes and no padding. -/
def decodedLength (data : Bytes) : Nat :=
  data.length / 4 * 3 - (if data[data.length - 1]? = some 61 then 1 else 0) -
    (if data[data.length - 2]? = some 61 then 1 else 0)

/-- `base64_decode(data, data.length(), &output_length)`: the decoded bytes, or `none` for a null
pointer. `malloc` tells which allocations succeed. -/
def base64Decode (malloc : Nat → Bool) (data : Bytes) : Option Bytes :=
  if data.length % 4 ≠ 0 then none
  else if malloc (decodedLength data + 1) then
    some ((decodeQuads data).take (decodedLength data))
  else none

example : base64Decode (fun _ => true) (lit "YWRtaW46YWRtaW4=") = some (lit "admin:admin") := by
  decide

end Dvws
