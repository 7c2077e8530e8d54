import Dvws.Codec.Decimal

/-!
# Responses on the wire

The format of a response of HTTP/1.1: a status line, header fields, an empty line, and the body. A
client reads the lines up to the empty one (`readHead`); the body is as long as `Content-Length`
says, or goes on to the end of the connection (`readResponse`). What is written line by line, with
no line end inside a line, is read back as it was written, with nothing left over
(`read_response_render`).
-/

namespace Dvws.Wire

/-- The end of a line. -/
def lineEnd : Bytes := [13, 10]

/-- A header field. -/
structure Field where
  name : Bytes
  value : Bytes
  deriving DecidableEq, Repr

/-- The text of a header field. -/
def Field.text (field : Field) : Bytes := field.name ++ lit ": " ++ field.value

/-- A name without colons or line ends, and a value without line ends. -/
structure Field.Clean (field : Field) : Prop where
  name : ∀ c ∈ field.name, c ≠ 58 ∧ c ≠ 13
  value : 13 ∉ field.value

/-- A response, with its status behind the version. -/
structure Response where
  status : Bytes
  fields : List Field
  body : Bytes
  deriving DecidableEq, Repr

/-- The lines of the fields. -/
def renderFields (fields : List Field) : Bytes :=
  fields.flatMap fun field => field.text ++ lineEnd

/-- The status line, the fields and the empty line. -/
def renderHead (status : Bytes) (fields : List Field) : Bytes :=
  lit "HTTP/1.1 " ++ status ++ lineEnd ++ renderFields fields ++ lineEnd

/-- The whole response. -/
def Response.render (response : Response) : Bytes :=
  renderHead response.status response.fields ++ response.body

/-- The letter in lower case; other bytes stay. -/
def lower (c : UInt8) : UInt8 := if 65 ≤ c ∧ c ≤ 90 then c + 32 else c

/-- The value of the first field of this name, which is given in lower case. -/
def lookup (name : Bytes) (fields : List Field) : Option Bytes :=
  (fields.find? fun field => field.name.map lower == name).map Field.value

/-- The first line, and what comes behind it. -/
def readLine (s : Bytes) : Option (Bytes × Bytes) :=
  (Text.find lineEnd s).map fun stop => (s.take stop, s.drop (stop + 2))

/-- The field in a line. -/
def readField (line : Bytes) : Option Field :=
  (Text.find (lit ": ") line).map fun colon => ⟨line.take colon, line.drop (colon + 2)⟩

/-- The fields up to the empty line, and what comes behind it. -/
def readFields : Nat → Bytes → Option (List Field × Bytes)
  | 0, _ => none
  | turns + 1, s => do
      let (line, rest) ← readLine s
      if line = [] then pure ([], rest)
      else
        let field ← readField line
        let (fields, behind) ← readFields turns rest
        pure (field :: fields, behind)

/-- The status and the fields, and what comes behind the empty line. -/
def readHead (s : Bytes) : Option (Bytes × List Field × Bytes) := do
  let (line, rest) ← readLine s
  if lit "HTTP/1.1 " <+: line then
    let (fields, behind) ← readFields (rest.length + 1) rest
    pure (line.drop 9, fields, behind)
  else none

/-- The response at the start of what a client receives until the connection is closed, and what
is left over behind it. -/
def readResponse (s : Bytes) : Option (Response × Bytes) := do
  let (status, fields, rest) ← readHead s
  match lookup (lit "content-length") fields with
  | none => pure (⟨status, fields, rest⟩, [])
  | some text =>
      let length ← readDecimal text
      if length ≤ rest.length then pure (⟨status, fields, rest.take length⟩, rest.drop length)
      else none

/-- No line has a line end inside, and the length of the body is as it says. -/
structure Response.WellFormed (response : Response) : Prop where
  status : 13 ∉ response.status
  fields : ∀ field ∈ response.fields, field.Clean
  length : ∀ text, lookup (lit "content-length") response.fields = some text →
    readDecimal text = some response.body.length

/-! ## Reading what was written -/

/-- A line is read up to its end. -/
theorem read_line_append {line : Bytes} (h : 13 ∉ line) (rest : Bytes) :
    readLine (line ++ lineEnd ++ rest) = some (line, rest) := by
  have hfind : Text.find lineEnd (line ++ lineEnd ++ rest) = some line.length :=
    Text.find_append_cons h
  have hlength : line.length + 2 = (line ++ lineEnd).length := by simp [lineEnd]
  rw [readLine, hfind, Option.map_some, hlength, List.drop_left, List.append_assoc,
    List.take_left]

/-- The text of a clean field is one line. -/
theorem Field.Clean.text_clean {field : Field} (h : field.Clean) : 13 ∉ field.text := by
  have hmark : (13 : UInt8) ∉ lit ": " := by decide
  simp only [Field.text, List.mem_append, not_or]
  exact ⟨⟨fun hname => (h.name _ hname).2 rfl, hmark⟩, h.value⟩

/-- The text of a clean field is read as that field. -/
theorem read_field_text {field : Field} (h : field.Clean) : readField field.text = some field := by
  have hcolon : 58 ∉ field.name := fun hname => (h.name _ hname).1 rfl
  have hmark : lit ": " = 58 :: [32] := by decide
  have hfind : Text.find (lit ": ") field.text = some field.name.length := by
    rw [Field.text, hmark]
    exact Text.find_append_cons hcolon
  have hlength : field.name.length + 2 = (field.name ++ lit ": ").length := by
    rw [List.length_append, hmark]
    rfl
  rw [readField, hfind, Option.map_some, hlength, Field.text, List.drop_left, List.append_assoc,
    List.take_left]

/-- The text of a field is not empty. -/
theorem Field.text_ne_nil (field : Field) : field.text ≠ [] := by
  simp [Field.text, show lit ": " ≠ [] by decide]

/-- Clean fields are read back, up to the empty line. -/
theorem read_fields_append {fields : List Field} (h : ∀ field ∈ fields, field.Clean)
    {turns : Nat} (hturns : fields.length < turns) (rest : Bytes) :
    readFields turns (renderFields fields ++ lineEnd ++ rest) = some (fields, rest) := by
  induction fields generalizing turns with
  | nil =>
      obtain ⟨turns, rfl⟩ : ∃ more, turns = more + 1 := ⟨turns - 1, by simp at hturns; omega⟩
      have hline := read_line_append (show (13 : UInt8) ∉ [] from List.not_mem_nil) rest
      rw [List.nil_append] at hline
      rw [readFields, renderFields, List.flatMap_nil, List.nil_append, hline]
      rfl
  | cons field fields ih =>
      obtain ⟨turns, rfl⟩ : ∃ more, turns = more + 1 := ⟨turns - 1, by simp at hturns; omega⟩
      have hclean := h field List.mem_cons_self
      have hrest := ih (fun field hfield => h field (List.mem_cons_of_mem _ hfield))
        (Nat.lt_of_succ_lt_succ hturns)
      have hsplit : renderFields (field :: fields) ++ lineEnd ++ rest =
          field.text ++ lineEnd ++ (renderFields fields ++ lineEnd ++ rest) := by
        simp [renderFields]
      rw [readFields, hsplit, read_line_append hclean.text_clean]
      simp only [Option.bind_eq_bind, Option.bind_some]
      rw [if_neg field.text_ne_nil, read_field_text hclean, Option.bind_some, hrest]
      rfl

/-- The fields have a line each. -/
theorem length_le_render_fields (fields : List Field) :
    fields.length ≤ (renderFields fields).length := by
  induction fields with
  | nil => exact Nat.le_refl 0
  | cons field fields ih =>
      simp only [renderFields, List.flatMap_cons, List.length_append, List.length_cons] at ih ⊢
      have hend : lineEnd.length = 2 := rfl
      omega

/-- A head is read back. -/
theorem read_head_render {status : Bytes} {fields : List Field} (hstatus : 13 ∉ status)
    (hfields : ∀ field ∈ fields, field.Clean) (rest : Bytes) :
    readHead (renderHead status fields ++ rest) = some (status, fields, rest) := by
  have hversion : (13 : UInt8) ∉ lit "HTTP/1.1 " := by decide
  have hline : 13 ∉ lit "HTTP/1.1 " ++ status := by
    simp only [List.mem_append, not_or]
    exact ⟨hversion, hstatus⟩
  have hsplit : renderHead status fields ++ rest =
      (lit "HTTP/1.1 " ++ status) ++ lineEnd ++ (renderFields fields ++ lineEnd ++ rest) := by
    simp [renderHead]
  have hturns : fields.length < (renderFields fields ++ lineEnd ++ rest).length + 1 := by
    have hlines := length_le_render_fields fields
    simp only [List.length_append]
    omega
  have hlength : (lit "HTTP/1.1 ").length = 9 := by decide
  have hdrop : (lit "HTTP/1.1 " ++ status).drop 9 = status := by rw [← hlength, List.drop_left]
  rw [readHead, hsplit, read_line_append hline]
  simp only [Option.bind_eq_bind, Option.bind_some]
  rw [if_pos (List.prefix_append _ _), read_fields_append hfields hturns, Option.bind_some, hdrop]
  rfl

/-- A well-formed response is read back whole. -/
theorem read_response_render {response : Response} (h : response.WellFormed) :
    readResponse response.render = some (response, []) := by
  unfold readResponse
  rw [Response.render, read_head_render h.status h.fields]
  simp only [Option.bind_eq_bind, Option.bind_some]
  cases hlength : lookup (lit "content-length") response.fields with
  | none => rfl
  | some text =>
      dsimp only
      rw [h.length text hlength, Option.bind_some, if_pos (Nat.le_refl _), List.take_length,
        List.drop_length]
      rfl

end Dvws.Wire
