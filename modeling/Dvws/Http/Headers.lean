import Dvws.Utils

/-!
# Header lookup

`HttpRequest::header` looks for the name with its colon anywhere in the text, and reads the value
from there: past all white space, the end of the line included, up to the next CRLF, or the next LF
if there is no CRLF, or the end of the text (`headerValue`). In a request that is written as lines
(`FieldRequest`) this is the value of the first field of the name when that field is the first
place where the name stands before a colon, and has a value that is not empty
(`FieldRequest.LineReads`). Where that place is in another line, or in the body, what stands behind
it in its line, or in the next line that is not blank, may happen to be the value
(`FieldRequest.Coincides`).
-/

namespace Dvws

open Text

/-- The value that a header lookup reads behind the name: the rest of the line, or of the text,
from the first byte on that is no white space. -/
def headerValue (text : Bytes) : Bytes :=
  let value := text.dropWhile isSpace
  (((find (lit "\r\n") value).or (find (lit "\n") value)).map value.take).getD value

/-- A header lookup reads behind the first occurrence of the name. -/
theorem extract_header_value_eq (request name : Bytes) :
    extractHeaderValue request name = .ok (((behind name request).map headerValue).getD []) := by
  unfold extractHeaderValue behind
  cases hfind : find name request with
  | none => rfl
  | some pos =>
      have hbound := skip_space_le (find_add_length_le hfind)
      have hvalue : request.drop (skipSpace request (pos + name.length)) =
          (request.drop (pos + name.length)).dropWhile isSpace := by
        have hsplit := List.takeWhile_append_dropWhile (p := isSpace)
          (l := request.drop (pos + name.length))
        unfold skipSpace
        rw [← List.drop_drop]
        nth_rewrite 2 [← hsplit]
        exact List.drop_left
      dsimp only
      rw [substr_of_le hbound, Option.map_some, Option.map_some, Option.getD_some]
      unfold findFrom headerValue
      dsimp only
      rw [hvalue, ← Option.map_or]
      generalize (find (lit "\r\n") ((request.drop (pos + name.length)).dropWhile isSpace)).or
        (find (lit "\n") ((request.drop (pos + name.length)).dropWhile isSpace)) = stop
      cases stop with
      | none => rfl
      | some stop => simp

/-- Header lines, each with its end. -/
def headerLines (lines : List Bytes) : Bytes := lines.flatMap fun line => line ++ lit "\r\n"

/-- The first line, with its end, and the others. -/
theorem header_lines_cons (line : Bytes) (lines : List Bytes) :
    headerLines (line :: lines) = line ++ 13 :: 10 :: headerLines lines := by
  rw [headerLines, List.flatMap_cons, List.append_assoc]
  rfl

/-- Header lines end in LF. -/
theorem getLast_header_lines (line : Bytes) (lines : List Bytes) :
    (headerLines (line :: lines)).getLast? = some 10 := by
  induction lines generalizing line with
  | nil =>
      rw [headerLines, List.flatMap_singleton, List.getLast?_append]
      rfl
  | cons next lines ih =>
      have hnext := ih next
      unfold headerLines at hnext ⊢
      rw [List.flatMap_cons, List.getLast?_append, hnext]
      rfl

/-- A text that ends neither in a CR nor in an LF ends inside one of the lines, or behind them. -/
theorem exists_line_of_prefix {lines : List Bytes} {s rest : Bytes} {c : UInt8}
    (h : s <+: headerLines lines ++ rest) (hlast : s.getLast? = some c) (hc : c ≠ 13 ∧ c ≠ 10) :
    (∃ before a b after, lines = before ++ (a ++ b) :: after ∧ s = headerLines before ++ a) ∨
      ∃ a b, rest = a ++ b ∧ s = headerLines lines ++ a := by
  induction lines generalizing s with
  | nil =>
      obtain ⟨b, hrest⟩ := h
      exact .inr ⟨s, b, hrest.symm, rfl⟩
  | cons line lines ih =>
      have hlines : headerLines (line :: lines) ++ rest =
          line ++ 13 :: 10 :: (headerLines lines ++ rest) := by
        rw [header_lines_cons]
        simp
      rw [hlines] at h
      obtain ⟨b, rfl⟩ | ⟨more, rfl⟩ :=
        List.prefix_or_prefix_of_prefix h (List.prefix_append line _)
      · exact .inl ⟨[], s, b, lines, rfl, rfl⟩
      rw [List.prefix_append_right_inj] at h
      -- the text does not end in the end of the line
      match more with
      | [] => exact .inl ⟨[], line, [], lines, by simp, List.append_nil _⟩
      | [d] =>
          obtain ⟨rfl, -⟩ := List.cons_prefix_cons.mp h
          rw [List.getLast?_concat] at hlast
          exact absurd (Option.some.inj hlast).symm hc.1
      | d :: e :: tail =>
          obtain ⟨hd, hrest⟩ := List.cons_prefix_cons.mp h
          obtain ⟨he, htail⟩ := List.cons_prefix_cons.mp hrest
          subst hd he
          have hsplit : line ++ 13 :: 10 :: tail = line ++ [13, 10] ++ tail := by simp
          by_cases hnil : tail = []
          · rw [hsplit, hnil, List.append_nil, List.getLast?_append] at hlast
            exact absurd (Option.some.inj hlast).symm hc.2
          rw [hsplit, List.getLast?_append_of_ne_nil _ hnil] at hlast
          obtain ⟨before, a, b, after, rfl, rfl⟩ | ⟨a, b, rfl, rfl⟩ := ih htail hlast
          · exact .inl ⟨line :: before, a, b, after, rfl, by rw [header_lines_cons]; simp⟩
          · exact .inr ⟨a, b, rfl, by rw [header_lines_cons]; simp⟩

/-- A text starts with a value that ends where the lookup ends it. -/
def ReadsAs (value text : Bytes) : Prop :=
  value <+: text ∧
    if lit "\r\n" <:+: text then lit "\r\n" <+: text.drop value.length
    else if lit "\n" <:+: text then lit "\n" <+: text.drop value.length
    else text.drop value.length = []

/-- The lookup reads a value without line ends exactly where the text is such. -/
theorem header_value_eq_iff {value : Bytes} (h : ∀ c ∈ value, c ≠ 13 ∧ c ≠ 10) (text : Bytes) :
    headerValue text = value ↔ ReadsAs value (text.dropWhile isSpace) := by
  have hreturn : (13 : UInt8) ∉ value := fun hmem => (h 13 hmem).1 rfl
  have hfeed : (10 : UInt8) ∉ value := fun hmem => (h 10 hmem).2 rfl
  unfold headerValue ReadsAs
  dsimp only
  generalize text.dropWhile isSpace = rest
  by_cases hcrlf : lit "\r\n" <:+: rest
  · obtain ⟨stop, hstop⟩ := exists_find_iff.mpr hcrlf
    rw [if_pos hcrlf, hstop, Option.some_or, Option.map_some, Option.getD_some]
    exact take_eq_iff_of_find hreturn hstop
  · rw [if_neg hcrlf, find_eq_none_iff.mpr hcrlf, Option.none_or]
    by_cases hlf : lit "\n" <:+: rest
    · obtain ⟨stop, hstop⟩ := exists_find_iff.mpr hlf
      rw [if_pos hlf, hstop, Option.map_some, Option.getD_some]
      exact take_eq_iff_of_find hfeed hstop
    · rw [if_neg hlf, find_eq_none_iff.mpr hlf, Option.map_none, Option.getD_none]
      constructor
      · rintro rfl
        exact ⟨List.prefix_refl _, List.drop_length⟩
      · intro hwhole
        obtain ⟨⟨more, rfl⟩, hend⟩ := hwhole
        rw [List.drop_left] at hend
        rw [hend, List.append_nil]

/-- The value that a lookup reads consists of bytes of the text. -/
theorem header_value_subset (text : Bytes) : headerValue text ⊆ text := by
  have hrest : text.dropWhile isSpace ⊆ text := (List.dropWhile_sublist _).subset
  unfold headerValue
  dsimp only
  generalize (find (lit "\r\n") (text.dropWhile isSpace)).or
    (find (lit "\n") (text.dropWhile isSpace)) = stop
  cases stop with
  | none => exact hrest
  | some stop => exact fun c hc => hrest (List.mem_of_mem_take hc)

/-! ## Requests written as lines -/

/-- A header field: a name without colons and white space, and a value on one line. -/
structure HeaderField where
  name : Bytes
  value : Bytes
  nameChars : ∀ c ∈ name, c ≠ 58 ∧ isSpace c = false
  valueChars : ∀ c ∈ value, c ≠ 13 ∧ c ≠ 10
  trimmed : ∀ c ∈ value.head?, isSpace c = false

/-- Its line. -/
def HeaderField.line (field : HeaderField) : Bytes := field.name ++ lit ": " ++ field.value

/-- A request as its request line, its header fields and its body. -/
structure FieldRequest where
  requestLine : Bytes
  fields : List HeaderField
  body : Bytes
  oneLine : ¬ lit "\r\n" <:+: requestLine

/-- Behind nothing but white space a lookup reads the empty value. -/
theorem reads_as_nil_iff (text : Bytes) :
    ReadsAs [] (text.dropWhile isSpace) ↔ ∀ c ∈ text, isSpace c = true := by
  rw [← List.dropWhile_eq_nil_iff]
  have hhead := List.head?_dropWhile_not isSpace text
  generalize text.dropWhile isSpace = rest at hhead ⊢
  constructor
  · intro hreads
    obtain ⟨-, hend⟩ := hreads
    -- the line cannot end at once, as the rest does not start with white space
    split at hend
    · obtain ⟨more, rfl⟩ := hend
      have hreturn : isSpace 13 = false := hhead
      exact absurd hreturn (by decide)
    · split at hend
      · obtain ⟨more, rfl⟩ := hend
        have hfeed : isSpace 10 = false := hhead
        exact absurd hfeed (by decide)
      · exact hend
  · rintro rfl
    exact ⟨List.prefix_refl _, by simp [show lit "\r\n" = [13, 10] from rfl,
      show lit "\n" = [10] from rfl]⟩

/-- The lookup reads the value of a line when it has one without NUL; a line without a value when
nothing but white space comes behind it. -/
theorem header_value_of_line (field : HeaderField) (rear : Bytes) :
    headerValue (cstr (32 :: (field.value ++ lit "\r\n" ++ rear))) = field.value ↔
      field.value ≠ [] ∧ 0 ∉ field.value ∨
        field.value = [] ∧ ∀ c ∈ cstr rear, isSpace c = true := by
  have hempty : headerValue (cstr (32 :: (lit "\r\n" ++ rear))) = [] ↔
      ∀ c ∈ cstr rear, isSpace c = true := by
    have htext : cstr ([32, 13, 10] ++ rear) = [32, 13, 10] ++ cstr rear :=
      cstr_append (by decide) rear
    show headerValue (cstr ([32, 13, 10] ++ rear)) = [] ↔ _
    rw [header_value_eq_iff (by simp), htext]
    exact reads_as_nil_iff (cstr rear)
  by_cases hnil : field.value = []
  · rw [hnil, List.nil_append, hempty]
    simp
  · obtain ⟨first, rest, hvalue⟩ := List.exists_cons_of_ne_nil hnil
    have hfirst : isSpace first = false := field.trimmed first (by rw [hvalue]; rfl)
    constructor
    · intro hread
      refine Or.inl ⟨hnil, fun hzero => ?_⟩
      rw [← hread] at hzero
      exact zero_not_mem_cstr _ (header_value_subset _ hzero)
    · rintro (⟨-, hzero⟩ | ⟨habsurd, -⟩)
      · have hline : (0 : UInt8) ∉ 32 :: field.value ++ lit "\r\n" := by
          simp [hzero, show lit "\r\n" = [13, 10] from rfl]
        have htext : cstr (32 :: (field.value ++ lit "\r\n" ++ rear)) =
            32 :: field.value ++ lit "\r\n" ++ cstr rear :=
          cstr_append hline rear
        have hdrop : (32 :: field.value ++ lit "\r\n" ++ cstr rear).dropWhile isSpace =
            field.value ++ lit "\r\n" ++ cstr rear := by
          rw [hvalue]
          simp [List.dropWhile, hfirst, show isSpace 32 = true from rfl]
        rw [header_value_eq_iff field.valueChars, htext, hdrop]
        refine ⟨⟨lit "\r\n" ++ cstr rear, by simp⟩, ?_⟩
        rw [if_pos ⟨field.value, cstr rear, rfl⟩, List.append_assoc, List.drop_left]
        exact List.prefix_append _ _
      · exact absurd habsurd hnil

/-! ## Reading on over lines -/

/-- The lines, of which the first is the rest of one, have the value in front: it is all of the
first but for white space, or the first is blank and the others have it. A NUL ends the text in its
line, and the body ends it behind the lines. -/
inductive ReadsOn (value body : Bytes) : List Bytes → Prop where
  | line {line lines} (hwhole : 0 ∉ line) (hvalue : value ≠ [])
      (h : line.dropWhile isSpace = value) : ReadsOn value body (line :: lines)
  | blank {line lines} (hwhole : 0 ∉ line) (hblank : ∀ c ∈ line, isSpace c = true)
      (h : ReadsOn value body lines) : ReadsOn value body (line :: lines)
  | cut {line lines} (hcut : 0 ∈ line) (h : ReadsAs value ((cstr line).dropWhile isSpace)) :
      ReadsOn value body (line :: lines)
  | body (h : ReadsAs value ((cstr body).dropWhile isSpace)) : ReadsOn value body []

/-- The end of a line is the first CRLF. -/
theorem find_line_end {line : Bytes} (h : ¬ lit "\r\n" <:+: line) (rest : Bytes) :
    find (lit "\r\n") (line ++ 13 :: 10 :: rest) = some line.length := by
  have hend : lit "\r\n" = [13, 10] := rfl
  rw [hend] at h ⊢
  induction line with
  | nil => exact find_of_starts_with ⟨rest, rfl⟩
  | cons c line ih =>
      have hnot : ¬ [13, 10] <+: c :: (line ++ 13 :: 10 :: rest) := by
        intro hbegins
        obtain ⟨hreturn, hbegins⟩ := List.cons_prefix_cons.mp hbegins
        cases line with
        | nil => exact absurd (List.cons_prefix_cons.mp hbegins).1 (by decide)
        | cons d line =>
            obtain ⟨hfeed, -⟩ := List.cons_prefix_cons.mp hbegins
            refine h (List.IsPrefix.isInfix ⟨line, ?_⟩)
            rw [← hreturn, ← hfeed]
            rfl
      rw [List.cons_append, find_cons_of_not_starts hnot, ih fun hline => h (List.infix_cons hline)]
      rfl

/-- A blank line is passed over. -/
theorem header_value_of_blank {line : Bytes} (hblank : ∀ c ∈ line, isSpace c = true)
    (rest : Bytes) : headerValue (line ++ 13 :: 10 :: rest) = headerValue rest := by
  have hdrop : (line ++ 13 :: 10 :: rest).dropWhile isSpace = rest.dropWhile isSpace := by
    have hreturn : isSpace 13 = true := rfl
    have hfeed : isSpace 10 = true := rfl
    rw [List.dropWhile_append_of_pos hblank, List.dropWhile_cons_of_pos hreturn,
      List.dropWhile_cons_of_pos hfeed]
  unfold headerValue
  rw [hdrop]

/-- A line that is not blank is read to its end, behind its white space. -/
theorem header_value_of_nonblank {line : Bytes} (hone : ¬ lit "\r\n" <:+: line)
    (hnonblank : ¬ ∀ c ∈ line, isSpace c = true) (rest : Bytes) :
    headerValue (line ++ 13 :: 10 :: rest) = line.dropWhile isSpace := by
  have hne : line.dropWhile isSpace ≠ [] := fun hnil =>
    hnonblank (List.dropWhile_eq_nil_iff.mp hnil)
  have hdrop : (line ++ 13 :: 10 :: rest).dropWhile isSpace =
      line.dropWhile isSpace ++ 13 :: 10 :: rest := by
    rw [List.dropWhile_append, if_neg (by simpa using hne)]
  have hrest : ¬ lit "\r\n" <:+: line.dropWhile isSpace := fun hinside =>
    hone (hinside.trans (List.dropWhile_suffix _).isInfix)
  unfold headerValue
  dsimp only
  rw [hdrop, find_line_end hrest, Option.some_or, Option.map_some, Option.getD_some, List.take_left]

/-- The lookup reads the value from lines on exactly when they have it in front. -/
theorem header_value_of_lines {value body : Bytes} (hchars : ∀ c ∈ value, c ≠ 13 ∧ c ≠ 10)
    {lines : List Bytes} (hlines : ∀ line ∈ lines, ¬ lit "\r\n" <:+: line) :
    headerValue (cstr (headerLines lines ++ body)) = value ↔ ReadsOn value body lines := by
  induction lines with
  | nil =>
      rw [headerLines, List.flatMap_nil, List.nil_append, header_value_eq_iff hchars]
      constructor
      · exact .body
      · rintro ⟨⟩
        assumption
  | cons line lines ih =>
      have hone := hlines line List.mem_cons_self
      have ih := ih fun other hother => hlines other (List.mem_cons_of_mem _ hother)
      rw [header_lines_cons, List.append_assoc, List.cons_append, List.cons_append]
      by_cases hzero : 0 ∈ line
      · rw [cstr_append_of_mem hzero, header_value_eq_iff hchars]
        constructor
        · exact .cut hzero
        · rintro (_ | _ | ⟨-, h⟩)
          · contradiction
          · contradiction
          · exact h
      have htext : cstr (line ++ 13 :: 10 :: (headerLines lines ++ body)) =
          line ++ 13 :: 10 :: cstr (headerLines lines ++ body) := cstr_append hzero _
      rw [htext]
      by_cases hblank : ∀ c ∈ line, isSpace c = true
      · rw [header_value_of_blank hblank, ih]
        constructor
        · exact .blank hzero hblank
        · rintro (⟨-, hvalue, h⟩ | ⟨-, -, h⟩ | _)
          · exact absurd (h.symm.trans (List.dropWhile_eq_nil_iff.mpr hblank)) hvalue
          · exact h
          · contradiction
      · rw [header_value_of_nonblank hone hblank]
        constructor
        · intro h
          refine .line hzero (fun hnil => hblank ?_) h
          exact List.dropWhile_eq_nil_iff.mp (h.trans hnil)
        · rintro (⟨-, -, h⟩ | _ | _)
          · exact h
          · contradiction
          · contradiction

namespace FieldRequest

variable (r : FieldRequest)

/-- The lines, with the empty one that ends them. -/
def lines : List Bytes := r.requestLine :: (r.fields.map HeaderField.line ++ [[]])

/-- What comes before the line of a field. -/
def front (before : List HeaderField) : Bytes :=
  headerLines (r.requestLine :: before.map HeaderField.line)

/-- What comes behind it. -/
def rear (after : List HeaderField) : Bytes :=
  headerLines (after.map HeaderField.line) ++ lit "\r\n" ++ r.body

/-- The request text. -/
def text : Bytes := r.front r.fields ++ lit "\r\n" ++ r.body

/-- The value of the first field of a name, or the empty text. -/
def value (name : Bytes) : Bytes :=
  ((r.fields.find? fun field => field.name == name).map HeaderField.value).getD []

/-- The line of a field is the first place of the text where its name stands before a colon. -/
structure FirstAt (before : List HeaderField) (field : HeaderField) (after : List HeaderField) :
    Prop where
  fields : r.fields = before ++ field :: after
  first : ¬ field.name ++ lit ":" <:+: r.front before
  whole : 0 ∉ r.front before ++ field.name

/-- The lookup of a name finds the line of a field of that name, and reads its value there. -/
def LineReads (name : Bytes) : Prop :=
  ∃ before field after, field.name = name ∧ r.FirstAt before field after ∧
    (field.value ≠ [] ∧ 0 ∉ field.value ∨
      field.value = [] ∧ ∀ c ∈ cstr (r.rear after), isSpace c = true)

/-- The name stands before a colon nowhere in the text, and has no value; or the first place where
it does is inside of one of the lines, or in the body, and the value stands in front there. -/
inductive Coincides (name : Bytes) : Prop where
  | nowhere (hnone : ¬ name ++ lit ":" <:+: cstr r.text) (hvalue : r.value name = [])
  | line {before a b after} (hlines : r.lines = before ++ (a ++ b) :: after)
      (hfirst : EndsFirst (name ++ lit ":") (headerLines before ++ a))
      (hwhole : 0 ∉ headerLines before ++ a)
      (hreads : ReadsOn (r.value name) r.body (b :: after))
  | body {a b} (hbody : r.body = a ++ b)
      (hfirst : EndsFirst (name ++ lit ":") (headerLines r.lines ++ a))
      (hwhole : 0 ∉ headerLines r.lines ++ a)
      (hreads : ReadsOn (r.value name) b [])

variable {r} {before after : List HeaderField} {field : HeaderField}

/-- The value that a name has is one of a line, or empty. -/
theorem value_chars (name : Bytes) : ∀ c ∈ r.value name, c ≠ 13 ∧ c ≠ 10 := by
  unfold value
  cases r.fields.find? fun field => field.name == name with
  | none => simp
  | some field => exact field.valueChars

/-- The field is the first of its name. -/
theorem FirstAt.value_eq (h : r.FirstAt before field after) :
    r.value field.name = field.value := by
  have hnone : before.find? (fun other => other.name == field.name) = none := by
    refine List.find?_eq_none.mpr fun other hother hsame => h.first ?_
    obtain ⟨first, later, rfl⟩ := List.append_of_mem hother
    refine ⟨r.front first,
      32 :: (other.value ++ lit "\r\n" ++ headerLines (later.map HeaderField.line)), ?_⟩
    rw [← eq_of_beq hsame]
    simp [front, headerLines, HeaderField.line, show lit ": " = lit ":" ++ [32] from rfl]
  rw [value, h.fields, List.find?_append, hnone, Option.none_or, List.find?_cons_of_pos (by simp)]
  rfl

/-- What the lookup reads stands behind the name of the first field of that name. -/
theorem FirstAt.behind_eq (h : r.FirstAt before field after) :
    behind (field.name ++ lit ":") (cstr r.text) =
      some (cstr (32 :: (field.value ++ lit "\r\n" ++ r.rear after))) := by
  have htext : r.text = (r.front before ++ (field.name ++ lit ":")) ++
      32 :: (field.value ++ lit "\r\n" ++ r.rear after) := by
    rw [text, front, h.fields]
    simp [front, rear, headerLines, HeaderField.line, show lit ": " = lit ":" ++ [32] from rfl]
  have hzero : (0 : UInt8) ∉ r.front before ++ (field.name ++ lit ":") := by
    have hwhole := h.whole
    simp only [List.mem_append, not_or] at hwhole ⊢
    exact ⟨hwhole.1, hwhole.2, by decide⟩
  have hfeed : (10 : UInt8) ∉ field.name ++ lit ":" := by
    intro hmem
    rcases List.mem_append.mp hmem with hname | hcolon
    · exact absurd (field.nameChars 10 hname).2 (by decide)
    · exact absurd hcolon (by decide)
  rw [htext, cstr_append hzero]
  exact behind_append_of_barrier h.first (last_not_mem (getLast_header_lines _ _) hfeed)

/-- The text is that of the lines, with the body behind them. -/
theorem text_eq : r.text = headerLines r.lines ++ r.body := by
  simp [text, front, lines, headerLines]

/-- None of the lines has an end in it. -/
theorem one_line {line : Bytes} (h : line ∈ r.lines) : ¬ lit "\r\n" <:+: line := by
  obtain rfl | hmem := List.mem_cons.mp h
  · exact r.oneLine
  intro hinside
  have hreturn : (13 : UInt8) ∈ line := hinside.subset (by decide)
  obtain hfield | hempty := List.mem_append.mp hmem
  · obtain ⟨field, -, rfl⟩ := List.mem_map.mp hfield
    have hsep : (13 : UInt8) ∉ lit ": " := by decide
    simp only [HeaderField.line, List.mem_append, hsep, or_false] at hreturn
    obtain hname | hvalue := hreturn
    · exact absurd (field.nameChars 13 hname).2 (by decide)
    · exact (field.valueChars 13 hvalue).1 rfl
  · rw [List.mem_singleton.mp hempty] at hreturn
    cases hreturn

/-- Up to a place in a line, the text is read whole. -/
theorem cstr_text_of_line {before after : List Bytes} {a b : Bytes}
    (hlines : r.lines = before ++ (a ++ b) :: after) (hwhole : 0 ∉ headerLines before ++ a) :
    cstr r.text = headerLines before ++ a ++ cstr (headerLines (b :: after) ++ r.body) := by
  rw [text_eq, hlines, ← cstr_append hwhole, header_lines_cons, headerLines, List.flatMap_append,
    ← headerLines, ← headerLines, header_lines_cons]
  simp only [List.append_assoc]

/-- Up to a place in the body, the text is read whole as well. -/
theorem cstr_text_of_body {a b : Bytes} (hbody : r.body = a ++ b)
    (hwhole : 0 ∉ headerLines r.lines ++ a) :
    cstr r.text = headerLines r.lines ++ a ++ cstr b := by
  rw [text_eq, hbody, ← List.append_assoc, cstr_append hwhole]

/-- A lookup goes on from a place in a line. -/
theorem header_value_from_line {before after : List Bytes} {a b value : Bytes}
    (hlines : r.lines = before ++ (a ++ b) :: after) (hchars : ∀ c ∈ value, c ≠ 13 ∧ c ≠ 10) :
    headerValue (cstr (headerLines (b :: after) ++ r.body)) = value ↔
      ReadsOn value r.body (b :: after) := by
  refine header_value_of_lines hchars fun line hline => ?_
  obtain rfl | hmem := List.mem_cons.mp hline
  · have hone : ¬ lit "\r\n" <:+: a ++ line := r.one_line (by rw [hlines]; simp)
    exact fun hinside => hone (hinside.trans (List.suffix_append _ _).isInfix)
  · exact r.one_line (by rw [hlines]; simp [hmem])

/-- What stands behind the first place with the name is read as the value exactly when it happens to
be the value there. -/
theorem coincides_iff (name : Bytes) :
    ((behind (name ++ lit ":") (cstr r.text)).map headerValue).getD [] = r.value name ↔
      r.Coincides name := by
  have hchars := r.value_chars name
  have hbody (b : Bytes) : headerValue (cstr b) = r.value name ↔ ReadsOn (r.value name) b [] :=
    header_value_of_lines hchars (List.forall_mem_nil _)
  constructor
  · intro hreads
    cases hbehind : behind (name ++ lit ":") (cstr r.text) with
    | none =>
        rw [hbehind] at hreads
        exact .nowhere (find_eq_none_iff.mp (Option.map_eq_none_iff.mp hbehind)) hreads.symm
    | some rest =>
        rw [hbehind, Option.map_some, Option.getD_some] at hreads
        obtain ⟨s, hsplit, hfirst⟩ :=
          exists_ends_first (List.append_ne_nil_of_right_ne_nil _ (by decide)) hbehind
        have hwhole : 0 ∉ s := fun hzero =>
          zero_not_mem_cstr r.text (hsplit ▸ List.mem_append_left _ hzero)
        have hlast : s.getLast? = some 58 := by
          obtain ⟨front, rfl⟩ := hfirst.1
          rw [← List.append_assoc]
          exact List.getLast?_concat
        have hprefix : s <+: headerLines r.lines ++ r.body := by
          rw [← text_eq]
          exact List.IsPrefix.trans ⟨rest, hsplit.symm⟩ (List.takeWhile_prefix _)
        obtain ⟨before, a, b, after, hlines, rfl⟩ | ⟨a, b, hsplitBody, rfl⟩ :=
          exists_line_of_prefix hprefix hlast (by decide)
        · rw [r.cstr_text_of_line hlines hwhole] at hsplit
          rw [← List.append_cancel_left hsplit, r.header_value_from_line hlines hchars] at hreads
          exact .line hlines hfirst hwhole hreads
        · rw [r.cstr_text_of_body hsplitBody hwhole] at hsplit
          rw [← List.append_cancel_left hsplit, hbody] at hreads
          exact .body hsplitBody hfirst hwhole hreads
  · intro hcoincides
    cases hcoincides with
    | nowhere hnone hvalue =>
        have hbehind : behind (name ++ lit ":") (cstr r.text) = none :=
          Option.map_eq_none_iff.mpr (find_eq_none_iff.mpr hnone)
        rw [hbehind, hvalue]
        rfl
    | line hlines hfirst hwhole hreads =>
        rw [r.cstr_text_of_line hlines hwhole, hfirst.behind_append]
        exact (r.header_value_from_line hlines hchars).mpr hreads
    | body hsplit hfirst hwhole hreads =>
        rw [r.cstr_text_of_body hsplit hwhole, hfirst.behind_append]
        exact (hbody _).mpr hreads

end FieldRequest

/-- The lookup of a name in a request agrees with its header fields exactly when it reads the line
of the name, or when that line is not the first place with the name and the text there happens to
read as the same value. -/
theorem header_agrees_iff (r : FieldRequest) (name : Bytes) :
    header (cstr r.text) name = .ok (r.value name) ↔
      r.LineReads name ∨
        (¬ ∃ before field after, field.name = name ∧ r.FirstAt before field after) ∧
          r.Coincides name := by
  rw [header, extract_header_value_eq, Except.ok.injEq]
  by_cases hfirst : ∃ before field after, field.name = name ∧ r.FirstAt before field after
  · rw [or_iff_left fun h => h.1 hfirst]
    constructor
    · intro hagrees
      obtain ⟨before, field, after, rfl, hat⟩ := hfirst
      rw [hat.behind_eq, hat.value_eq] at hagrees
      exact ⟨before, field, after, rfl, hat, (header_value_of_line field _).mp hagrees⟩
    · intro hreads
      obtain ⟨before, field, after, rfl, hat, hvalue⟩ := hreads
      rw [hat.behind_eq, hat.value_eq]
      exact (header_value_of_line field _).mpr hvalue
  · rw [and_iff_right hfirst, or_iff_right]
    · exact r.coincides_iff name
    · intro hreads
      obtain ⟨before, field, after, hname, hat, -⟩ := hreads
      exact hfirst ⟨before, field, after, hname, hat⟩

/-- A field whose name ends in that of another. -/
def forwardedHost : HeaderField where
  name := lit "X-Host"
  value := lit "a"
  nameChars := forall_mem_of_all (by decide)
  valueChars := forall_mem_of_all (by decide)
  trimmed := by
    intro c hfirst
    obtain rfl : 97 = c := Option.some.inj hfirst
    rfl

/-- A field without a value. -/
def emptyHost : HeaderField where
  name := lit "Host"
  value := []
  nameChars := forall_mem_of_all (by decide)
  valueChars := fun _ hmem => absurd hmem List.not_mem_nil
  trimmed := by
    intro c hfirst
    cases hfirst

/-- A request with header fields and no body. -/
def fieldRequest (fields : List HeaderField) : FieldRequest where
  requestLine := lit "GET / HTTP/1.1"
  fields := fields
  body := []
  oneLine := by decide

/-- The lookup takes a name for a part of another, and the next line for the value. -/
theorem header_disagrees :
    header (cstr (fieldRequest [forwardedHost]).text) (lit "Host") ≠
        .ok ((fieldRequest [forwardedHost]).value (lit "Host")) ∧
      header (cstr (fieldRequest [emptyHost, forwardedHost]).text) (lit "Host") ≠
        .ok ((fieldRequest [emptyHost, forwardedHost]).value (lit "Host")) := by
  constructor
  · decide +kernel
  · decide +kernel

end Dvws
