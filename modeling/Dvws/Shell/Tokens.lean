import Mathlib.Algebra.Order.Ring.Nat

/-!
# The tokens of a shell command

The token recognition of the POSIX shell with its quoting rules, for command texts whose words the
shell takes as they are written: a text with an expansion, a here-document or an open quote has no
tokens here. A `$` that starts no expansion stands for itself.

`tokens_weight` bounds the length of all words by that of the text. A word written in double quotes
costs two more bytes than it has, so that a text in double quotes is one word with the same bytes
exactly when no byte of it has a meaning of its own there (`tokens_quoted_iff`).
-/

namespace Dvws.Shell

/-- A word without its quotes, or an operator. -/
inductive Token where
  | word (text : List UInt8)
  | operator (text : List UInt8)
  deriving DecidableEq, Repr

/-- Outside of quotes, inside of them, or in a comment. -/
inductive Mode where
  | plain
  | single
  | double
  | comment
  deriving DecidableEq, Repr

/-- The recognition so far. `held` is a `$`, a backslash or both, whose meaning depends on the byte
behind; `current` is the token that may still grow. -/
structure State where
  mode : Mode
  held : List UInt8
  current : Option Token
  tokens : List Token
  deriving DecidableEq, Repr

/-- The first byte of an operator: a newline or one of `&`, `(`, `)`, `;`, `<`, `>` and `|`. -/
def startsOperator (c : UInt8) : Bool := c ∈ [10, 38, 40, 41, 59, 60, 62, 124]

/-- The operators of two bytes, `&&`, `;;`, `<&`, `<<`, `<>`, `>&`, `>>`, `>|` and `||`. -/
def longOperators : List (List UInt8) :=
  [[38, 38], [59, 59], [60, 38], [60, 60], [60, 62], [62, 38], [62, 62], [62, 124], [124, 124]]

/-- A space or a tab. -/
def isBlank (c : UInt8) : Bool := c = 32 || c = 9

/-- The byte makes a `$` in front of it the start of an expansion: `(` and `{`, a special parameter,
a digit, or the first letter of a name. -/
def startsExpansion (c : UInt8) : Bool :=
  c ∈ [40, 123, 64, 42, 35, 63, 45, 36, 33, 95] ||
    (48 ≤ c && c ≤ 57) || (65 ≤ c && c ≤ 90) || (97 ≤ c && c ≤ 122)

/-- Outside of quotes, a backquote starts an expansion, and `*`, `?`, `[` and `~` make a word
subject to one. -/
def expandsBare (c : UInt8) : Bool := c ∈ [96, 42, 63, 91, 126]

/-- In double quotes, a backslash quotes a newline, `"`, `$`, a backslash and a backquote. -/
def escapable (c : UInt8) : Bool := c ∈ [10, 34, 36, 92, 96]

namespace State

/-- The token that was growing is complete. -/
def flush (s : State) : State := { s with current := none, tokens := s.tokens ++ s.current.toList }

/-- These bytes belong to a word, and nothing is held. -/
def add (s : State) (bytes : List UInt8) : State :=
  match s.current with
  | some (.word text) => { s with held := [], current := some (.word (text ++ bytes)) }
  | _ => { s.flush with held := [], current := some (.word bytes) }

/-- What is held stands for itself. -/
def settle (s : State) : State := if s.held = [] then s else s.add s.held

/-- The last byte was a backslash that quotes the next one. -/
def escaped (s : State) : Bool := s.held.getLast? = some 92

/-- The operator that this byte makes of the current one. -/
def joined (s : State) (c : UInt8) : Option (List UInt8) :=
  match s.current with
  | some (.operator text) => if text ++ [c] ∈ longOperators then some (text ++ [c]) else none
  | _ => none

/-- A byte outside of quotes that no backslash and no `$` precedes. -/
def stepBare (s : State) (c : UInt8) : Option State :=
  match s.joined c with
  | some [60, 60] => none
  | some text => some { s with current := some (.operator text) }
  | none =>
      if startsOperator c then some { s.flush with current := some (.operator [c]) }
      else if isBlank c then some s.flush
      else if c = 34 then some { s.add [] with mode := .double }
      else if c = 39 then some { s.add [] with mode := .single }
      -- a number sign inside a word is part of it
      else if c = 35 ∧ ¬ s.current.any (· matches .word _) then
        some { s.flush with mode := .comment }
      else if c = 36 then some { s with held := [36] }
      else if expandsBare c then none
      else some (s.add [c])

/-- A byte outside of quotes. A backslash with a newline joins two lines. -/
def stepPlain (s : State) (c : UInt8) : Option State :=
  if s.escaped then
    if c = 10 then some { s with held := s.held.dropLast }
    else some (s.add (s.held.dropLast ++ [c]))
  else if s.held ≠ [] ∧ startsExpansion c then none
  else if c = 92 then some { s with held := s.held ++ [92] }
  else s.settle.stepBare c

/-- A byte in double quotes. -/
def stepDouble (s : State) (c : UInt8) : Option State :=
  if s.escaped then
    if c = 10 then some { s with held := s.held.dropLast }
    else if escapable c then some (s.add (s.held.dropLast ++ [c]))
    else some (s.add (s.held ++ [c]))
  else if s.held ≠ [] ∧ startsExpansion c then none
  else if c = 92 then some { s with held := s.held ++ [92] }
  else if c = 36 then some { s.add s.held with held := [36] }
  else if c = 34 then some { s.add s.held with mode := .plain }
  else if c = 96 then none
  else some (s.add (s.held ++ [c]))

/-- One byte. -/
def step (s : State) (c : UInt8) : Option State :=
  match s.mode with
  | .plain => s.stepPlain c
  | .single => if c = 39 then some { s with mode := .plain } else some (s.add [c])
  | .double => s.stepDouble c
  | .comment => if c = 10 then { s with mode := .plain }.stepBare c else some s

/-- The tokens at the end of the text. -/
def finish (s : State) : Option (List Token) :=
  match s.mode with
  | .plain => some s.settle.flush.tokens
  | .comment => some s.settle.flush.tokens
  | _ => none

end State

/-- Before the first byte. -/
def start : State := ⟨.plain, [], none, []⟩

/-- The bytes one after the other. -/
def run (s : State) (text : List UInt8) : Option State := text.foldlM State.step s

/-- The tokens of the text that is left in a state. -/
def tokensFrom (s : State) (text : List UInt8) : Option (List Token) :=
  (run s text).bind State.finish

/-- The tokens of a command. -/
def tokens (text : List UInt8) : Option (List Token) := tokensFrom start text

/-- No byte of the text has a meaning of its own in double quotes. Behind the text there is the
closing quote. -/
def literal : List UInt8 → Bool
  | [] => true
  | c :: rest =>
      c ≠ 34 && c ≠ 96 && !(c = 36 && startsExpansion (rest.headD 34)) &&
        !(c = 92 && escapable (rest.headD 34)) && literal rest

/-! ## Lengths -/

/-- The bytes of a word. -/
def Token.size : Token → Nat
  | .word text => text.length
  | .operator _ => 0

/-- The bytes of all words. -/
def totalSize (tokens : List Token) : Nat := (tokens.map Token.size).sum

/-- The closing quote that is still to come. -/
def Mode.due : Mode → Nat
  | .single => 1
  | .double => 1
  | _ => 0

namespace State

/-- The bytes that went into words or are held for one. -/
def weight (s : State) : Nat :=
  totalSize s.tokens + totalSize s.current.toList + s.held.length

variable {s s' : State} {c : UInt8}

@[simp] theorem weight_flush (s : State) : s.flush.weight = s.weight := by
  simp [weight, flush, totalSize]

@[simp] theorem mode_add (s : State) (bytes : List UInt8) : (s.add bytes).mode = s.mode := by
  unfold add
  split <;> rfl

@[simp] theorem held_add (s : State) (bytes : List UInt8) : (s.add bytes).held = [] := by
  unfold add
  split <;> rfl

/-- Bytes that are added count, those that were held do not any more. -/
theorem weight_add (s : State) (bytes : List UInt8) :
    (s.add bytes).weight + s.held.length = s.weight + bytes.length := by
  rcases s with ⟨mode, held, _ | text | text, tokens⟩
  · simp [weight, add, flush, totalSize, Token.size]
    omega
  · simp [weight, add, totalSize, Token.size]
    omega
  · simp [weight, add, flush, totalSize, Token.size]
    omega

@[simp] theorem mode_settle (s : State) : s.settle.mode = s.mode := by
  unfold settle
  split
  · rfl
  · exact mode_add ..

@[simp] theorem weight_settle (s : State) : s.settle.weight = s.weight := by
  unfold settle
  split
  · rfl
  · have hadd := weight_add s s.held
    omega

/-- A backslash that quotes the next byte is held. -/
theorem length_of_escaped (h : s.escaped = true) : s.held.length = s.held.dropLast.length + 1 := by
  have hne : s.held ≠ [] := by
    intro hnil
    rw [escaped, hnil] at h
    cases h
  have hpos := List.length_pos_iff.mpr hne
  rw [List.length_dropLast]
  omega

/-- An operator that grows adds nothing to the words. -/
theorem weight_of_joined {text : List UInt8} (h : s.joined c = some text) :
    ({ s with current := some (.operator text) } : State).weight = s.weight := by
  unfold joined at h
  split at h
  · rename_i hcurrent
    simp [weight, hcurrent, totalSize, Token.size]
  · cases h

/-- A byte outside of quotes that nothing precedes adds at most itself, or opens a quote. -/
theorem weight_step_bare (hmode : s.mode = .plain) (h : s.stepBare c = some s') :
    s'.weight + s'.mode.due ≤ s.weight + 1 ∧ (c = 34 → s'.weight ≤ s.weight) := by
  have hdue : s.mode.due = 0 := congrArg Mode.due hmode
  have hopen := s.weight_add []
  have hadd := s.weight_add [c]
  have hflush := s.weight_flush
  rw [List.length_nil] at hopen
  rw [List.length_singleton] at hadd
  unfold stepBare at h
  split at h
  · cases h
  · rename_i text _ hjoined
    cases h
    rw [weight_of_joined hjoined]
    refine ⟨?_, fun _ => Nat.le_refl _⟩
    show s.weight + s.mode.due ≤ s.weight + 1
    omega
  · split_ifs at h with hoperator hblank hdouble hsingle hcomment hdollar hexpands
    · cases h
      have hsame : ({ s.flush with current := some (.operator [c]) } : State).weight =
          s.flush.weight := by simp [weight, flush, totalSize, Token.size]
      rw [hsame]
      show s.flush.weight + s.mode.due ≤ _ ∧ (_ → s.flush.weight ≤ _)
      omega
    · cases h
      show s.flush.weight + s.mode.due ≤ _ ∧ (_ → s.flush.weight ≤ _)
      omega
    · cases h
      show (s.add []).weight + 1 ≤ _ ∧ (_ → (s.add []).weight ≤ _)
      omega
    · cases h
      show (s.add []).weight + 1 ≤ _ ∧ (_ → (s.add []).weight ≤ _)
      omega
    · cases h
      show s.flush.weight + 0 ≤ _ ∧ (_ → s.flush.weight ≤ _)
      omega
    · cases h
      refine ⟨?_, fun hquote => absurd hquote hdouble⟩
      show totalSize s.tokens + totalSize s.current.toList + 1 + s.mode.due ≤ s.weight + 1
      rw [weight]
      omega
    · cases h
      refine ⟨?_, fun hquote => absurd hquote hdouble⟩
      rw [mode_add]
      omega

/-- A byte that is quoted by the backslash before it takes the place of the backslash. -/
theorem weight_add_escaped (h : s.escaped = true) (c : UInt8) :
    (s.add (s.held.dropLast ++ [c])).weight = s.weight := by
  have hadd := s.weight_add (s.held.dropLast ++ [c])
  have hheld := length_of_escaped h
  rw [List.length_append, List.length_singleton] at hadd
  omega

/-- Two lines that are joined lose the backslash. -/
theorem weight_join_lines (h : s.escaped = true) :
    ({ s with held := s.held.dropLast } : State).weight + 1 = s.weight := by
  have hheld := length_of_escaped h
  show totalSize s.tokens + totalSize s.current.toList + s.held.dropLast.length + 1 = s.weight
  rw [weight]
  omega

/-- One more byte that is held weighs one more. -/
theorem weight_hold (s : State) :
    ({ s with held := s.held ++ [92] } : State).weight = s.weight + 1 := by
  show totalSize s.tokens + totalSize s.current.toList + (s.held ++ [92]).length = s.weight + 1
  rw [weight, List.length_append, List.length_singleton]
  omega

/-- A `$` is held behind what was held before. -/
theorem weight_hold_dollar (s : State) :
    ({ s.add s.held with held := [36] } : State).weight = s.weight + 1 := by
  have hadd := s.weight_add s.held
  show totalSize (s.add s.held).tokens + totalSize (s.add s.held).current.toList + 1 = s.weight + 1
  rw [weight, held_add, List.length_nil] at hadd
  omega

/-- A byte that is not in quotes adds at most itself, and nothing when it is a quote. -/
theorem weight_step_of_outside (hdue : s.mode.due = 0) (h : s.step c = some s') :
    s'.weight + s'.mode.due ≤ s.weight + 1 ∧ (c = 34 → s'.weight ≤ s.weight) := by
  unfold step at h
  split at h
  · rename_i hmode
    unfold stepPlain at h
    split_ifs at h with hescaped hnewline hexpands hbackslash
    · cases h
      have hjoin := weight_join_lines hescaped
      show _ + s.mode.due ≤ _ ∧ _
      omega
    · cases h
      rw [weight_add_escaped hescaped, mode_add]
      omega
    · cases h
      refine ⟨?_, fun hquote => absurd (hquote.symm.trans hbackslash) (by decide)⟩
      rw [weight_hold]
      show s.weight + 1 + s.mode.due ≤ _
      omega
    · have hbare := weight_step_bare (s.mode_settle.trans hmode) h
      rwa [weight_settle] at hbare
  · rename_i hmode
    rw [hmode] at hdue
    cases hdue
  · rename_i hmode
    rw [hmode] at hdue
    cases hdue
  · rename_i hmode
    split_ifs at h with hnewline
    · exact @weight_step_bare { s with mode := .plain } s' c rfl h
    · cases h
      omega

/-- A byte in quotes adds at most itself, or closes the quote. -/
theorem weight_step_of_inside (hdue : s.mode.due = 1) (h : s.step c = some s') :
    s'.weight ≤ s.weight + s'.mode.due := by
  unfold step at h
  split at h
  · rename_i hmode
    rw [hmode] at hdue
    cases hdue
  · split_ifs at h with hquote
    · cases h
      exact Nat.le_add_right _ _
    · cases h
      have hadd := s.weight_add [c]
      rw [List.length_singleton] at hadd
      rw [mode_add]
      omega
  · have hadd := s.weight_add (s.held ++ [c])
    have hsettle := s.weight_add s.held
    rw [List.length_append, List.length_singleton] at hadd
    unfold stepDouble at h
    split_ifs at h with hescaped hnewline hquoted hexpands hbackslash hdollar hquote
    · cases h
      have hjoin := weight_join_lines hescaped
      show _ ≤ s.weight + s.mode.due
      omega
    · cases h
      rw [weight_add_escaped hescaped]
      omega
    · cases h
      rw [mode_add]
      omega
    · cases h
      rw [weight_hold]
      show s.weight + 1 ≤ s.weight + s.mode.due
      omega
    · cases h
      rw [weight_hold_dollar]
      show _ ≤ s.weight + (s.add s.held).mode.due
      rw [mode_add]
      omega
    · cases h
      show (s.add s.held).weight ≤ s.weight + 0
      omega
    · cases h
      rw [mode_add]
      omega
  · rename_i hmode
    rw [hmode] at hdue
    cases hdue

/-- The tokens at the end hold what went into words, and no quote is open. -/
theorem weight_of_finish {tokens : List Token} (h : s.finish = some tokens) :
    totalSize tokens ≤ s.weight ∧ s.mode.due = 0 := by
  have hwords : totalSize s.settle.flush.tokens ≤ s.weight := by
    rw [← weight_settle, ← weight_flush]
    exact Nat.le_trans (Nat.le_add_right _ _) (Nat.le_add_right _ _)
  unfold finish at h
  split at h
  · rename_i hmode
    cases h
    exact ⟨hwords, congrArg Mode.due hmode⟩
  · rename_i hmode
    cases h
    exact ⟨hwords, congrArg Mode.due hmode⟩
  · cases h

end State

section Bounds

variable {s : State} {found : List Token}

/-- The bytes behind the first one are read from where it leads. -/
theorem tokens_from_cons (s : State) (c : UInt8) (rest : List UInt8) :
    tokensFrom s (c :: rest) = (s.step c).bind fun next => tokensFrom next rest := by
  unfold tokensFrom run
  rw [List.foldlM_cons]
  cases s.step c <;> rfl

/-- A text is read in two parts, one after the other. -/
theorem tokens_from_append {next : State} {front : List UInt8} (h : run s front = some next)
    (rest : List UInt8) : tokensFrom s (front ++ rest) = tokensFrom next rest := by
  unfold tokensFrom
  rw [run, List.foldlM_append, ← run, h]
  rfl

/-- A closing quote is to come or not. -/
theorem due_cases (mode : Mode) : mode.due = 0 ∨ mode.due = 1 := by
  cases mode <;> simp [Mode.due]

/-- The words are no longer than the text, and a byte shorter when a quote is still open. -/
theorem tokens_weight {text : List UInt8} (h : tokensFrom s text = some found) :
    totalSize found + s.mode.due ≤ s.weight + text.length := by
  induction text generalizing s with
  | nil =>
      obtain ⟨hsize, hdue⟩ := State.weight_of_finish h
      rw [hdue]
      exact hsize
  | cons c rest ih =>
      rw [tokens_from_cons] at h
      obtain ⟨next, hstep, hrest⟩ := Option.bind_eq_some_iff.mp h
      have hbound := ih hrest
      rw [List.length_cons]
      rcases due_cases s.mode with hdue | hdue
      · obtain ⟨hweight, -⟩ := State.weight_step_of_outside hdue hstep
        omega
      · have hweight := State.weight_step_of_inside hdue hstep
        omega

/-- A quote at the end of the text is lost, whether it closes, opens or is quoted itself. -/
theorem tokens_weight_quote {text : List UInt8} (h : tokensFrom s (text ++ [34]) = some found) :
    totalSize found ≤ s.weight + text.length := by
  rcases due_cases s.mode with hdue | hdue
  · induction text generalizing s with
    | nil =>
        rw [List.nil_append, tokens_from_cons] at h
        obtain ⟨next, hstep, hrest⟩ := Option.bind_eq_some_iff.mp h
        obtain ⟨-, hquote⟩ := State.weight_step_of_outside hdue hstep
        have hbound := tokens_weight hrest
        have hweight := hquote rfl
        rw [List.length_nil] at hbound ⊢
        omega
    | cons c rest ih =>
        rw [List.cons_append, tokens_from_cons] at h
        obtain ⟨next, hstep, hrest⟩ := Option.bind_eq_some_iff.mp h
        obtain ⟨hweight, -⟩ := State.weight_step_of_outside hdue hstep
        rw [List.length_cons]
        rcases due_cases next.mode with hnext | hnext
        · have hbound := ih hrest hnext
          omega
        · have hbound := tokens_weight hrest
          rw [List.length_append, List.length_singleton] at hbound
          omega
  · have hbound := tokens_weight h
    rw [List.length_append, List.length_singleton] at hbound
    omega

end Bounds

section Quoted

variable {c : UInt8} {word rest : List UInt8} {held : List UInt8} {before : List Token}

/-- In double quotes, behind these bytes of the word and with these held. -/
def quoting (held word : List UInt8) (before : List Token) : State :=
  ⟨.double, held, some (.word word), before⟩

/-- What has been read of the quoted text is all in the word or held. -/
theorem weight_quoting (held word : List UInt8) (before : List Token) :
    (quoting held word before).weight = totalSize before + word.length + held.length := by
  simp [State.weight, quoting, totalSize, Token.size]

/-- If a byte is lost, the word comes out too short. -/
theorem not_whole_of_lost {next : State}
    (hweight : next.weight ≤ (quoting held word before).weight) :
    tokensFrom next (rest ++ [34]) ≠ some (before ++ [.word (word ++ held ++ c :: rest)]) := by
  intro hwhole
  have hbound := tokens_weight_quote hwhole
  rw [weight_quoting] at hweight
  simp [totalSize, Token.size] at hbound hweight
  omega

/-- The byte behind a backslash decides whether the backslash stands for itself. -/
theorem literal_escaped (hheld : held = [] ∨ held = [36]) :
    literal (held ++ 92 :: c :: rest) = (!escapable c && literal (c :: rest)) := by
  rcases hheld with rfl | rfl
  · simp [literal]
  · simp [literal, startsExpansion]

/-- A `$` stands for itself when the byte behind it starts no expansion. -/
theorem literal_dollar :
    literal (36 :: c :: rest) = (!startsExpansion c && literal (c :: rest)) := by
  simp [literal]

/-- A byte that is no quote, backquote, `$` or backslash stands for itself. -/
theorem literal_plain (hquote : c ≠ 34) (hback : c ≠ 96) (hdollar : c ≠ 36) (hslash : c ≠ 92) :
    literal (c :: rest) = literal rest := by
  simp [literal, hquote, hback, hdollar, hslash]

/-- In double quotes a byte behind a backslash is joined, quoted or read with the backslash. -/
theorem step_escaped (hheld : held = [] ∨ held = [36]) :
    (quoting (held ++ [92]) word before).step c =
      if c = 10 then some (quoting held word before)
      else if escapable c then some (quoting [] (word ++ (held ++ [c])) before)
      else some (quoting [] (word ++ (held ++ [92] ++ [c])) before) := by
  rcases hheld with rfl | rfl <;> rfl

/-- In double quotes a byte that no backslash precedes is held, ends the quotes or goes into the
word, unless it starts an expansion. -/
theorem step_quoting (hheld : held = [] ∨ held = [36]) :
    (quoting held word before).step c =
      if held ≠ [] ∧ startsExpansion c then none
      else if c = 92 then some (quoting (held ++ [92]) word before)
      else if c = 36 then some (quoting [36] (word ++ held) before)
      else if c = 34 then some ⟨.plain, [], some (.word (word ++ held)), before⟩
      else if c = 96 then none
      else some (quoting [] (word ++ (held ++ [c])) before) := by
  rcases hheld with rfl | rfl <;> rfl

/-- The closing quote ends the word, unless a backslash precedes it. -/
theorem tokens_from_closing_iff {slash : List UInt8} (hheld : held = [] ∨ held = [36])
    (hslash : slash = [] ∨ slash = [92]) :
    tokensFrom (quoting (held ++ slash) word before) [34] =
      some (before ++ [.word (word ++ (held ++ slash))]) ↔ literal (held ++ slash) = true := by
  rw [tokens_from_cons]
  rcases hslash with rfl | rfl
  · have hstep : (quoting held word before).step 34 =
        some ⟨.plain, [], some (.word (word ++ held)), before⟩ := by
      rw [step_quoting hheld]
      rcases hheld with rfl | rfl <;> rfl
    rw [List.append_nil, hstep]
    refine iff_of_true rfl ?_
    rcases hheld with rfl | rfl <;> rfl
  · have hstep : (quoting (held ++ [92]) word before).step 34 =
        some (quoting [] (word ++ (held ++ [34])) before) := step_escaped hheld
    rw [hstep]
    refine iff_of_false (fun hfound => nomatch hfound) ?_
    rcases hheld with rfl | rfl <;> decide

/-- The rest of a text in double quotes becomes the rest of a word exactly when it stands for
itself, whatever is held in front of it. -/
def ReadsLiterally (before : List Token) (rest : List UInt8) : Prop :=
  ∀ held slash word, held = [] ∨ held = [36] → slash = [] ∨ slash = [92] →
    (tokensFrom (quoting (held ++ slash) word before) (rest ++ [34]) =
      some (before ++ [.word (word ++ (held ++ slash) ++ rest)]) ↔
        literal (held ++ slash ++ rest) = true)

/-- Behind a byte that settles all that was held, the rest decides whether the text is read
literally. -/
theorem ReadsLiterally.settled (hrest : ReadsLiterally before rest) (word read : List UInt8) :
    tokensFrom (quoting [] (word ++ read) before) (rest ++ [34]) =
      some (before ++ [.word (word ++ read ++ rest)]) ↔ literal rest = true := by
  have hnext := hrest [] [] (word ++ read) (Or.inl rfl) (Or.inl rfl)
  rwa [List.append_nil, List.append_nil, List.nil_append] at hnext

/-- What is read literally is so behind one more byte that no backslash precedes, exactly when
`literal` says so. -/
theorem ReadsLiterally.cons_bare (hrest : ReadsLiterally before rest)
    (hheld : held = [] ∨ held = [36]) :
    tokensFrom (quoting held word before) (c :: (rest ++ [34])) =
      some (before ++ [.word (word ++ held ++ c :: rest)]) ↔
        literal (held ++ c :: rest) = true := by
  rw [tokens_from_cons, step_quoting hheld]
  split_ifs with hexpands hbackslash hdollar hquote hback
  · refine iff_of_false (fun hfound => nomatch hfound) ?_
    obtain rfl := hheld.resolve_left hexpands.1
    rw [List.singleton_append, literal_dollar, hexpands.2]
    exact Bool.false_ne_true
  · have hnext := hrest held [92] word hheld (Or.inr rfl)
    rw [hbackslash]
    simpa using hnext
  · have hnil : held = [] := by
      refine hheld.resolve_right fun hsome => hexpands ⟨?_, ?_⟩
      · rw [hsome]
        exact List.cons_ne_nil _ _
      · rw [hdollar]
        decide
    have hnext := hrest [36] [] word (Or.inr rfl) (Or.inl rfl)
    rw [hnil, hdollar]
    simpa using hnext
  · refine iff_of_false (not_whole_of_lost ?_) ?_
    · rw [weight_quoting]
      simp [State.weight, totalSize, Token.size]
      omega
    · rcases hheld with rfl | rfl <;> simp [literal, hquote]
  · refine iff_of_false (fun hfound => nomatch hfound) ?_
    rcases hheld with rfl | rfl <;> simp [literal, hback]
  · have hplain := @literal_plain c rest hquote hback hdollar hbackslash
    have hliteral : literal (held ++ c :: rest) = literal rest := by
      rcases hheld with rfl | rfl
      · exact hplain
      · have hstays : startsExpansion c = false := by simpa using hexpands
        rw [List.singleton_append, literal_dollar, hstays, hplain]
        rfl
    rw [hliteral, ← hrest.settled word (held ++ [c])]
    simp

/-- What is read literally is so behind one more byte with a backslash before it, exactly when
`literal` says so. -/
theorem ReadsLiterally.cons_escaped (hrest : ReadsLiterally before rest)
    (hheld : held = [] ∨ held = [36]) :
    tokensFrom (quoting (held ++ [92]) word before) (c :: (rest ++ [34])) =
      some (before ++ [.word (word ++ (held ++ [92]) ++ c :: rest)]) ↔
        literal (held ++ [92] ++ c :: rest) = true := by
  have hsplit : held ++ [92] ++ c :: rest = held ++ 92 :: c :: rest := by simp
  rw [tokens_from_cons, step_escaped hheld, hsplit, literal_escaped hheld]
  split_ifs with hnewline hescapable
  · refine iff_of_false (not_whole_of_lost ?_) (by simp [hnewline, escapable])
    rw [weight_quoting, weight_quoting, List.length_append]
    omega
  · refine iff_of_false (not_whole_of_lost ?_) (by simp [hescapable])
    rw [weight_quoting, weight_quoting]
    simp only [List.length_append, List.length_singleton, List.length_nil]
    omega
  · have hordinary : ∀ special, escapable special = true → c ≠ special := by
      rintro special hspecial rfl
      exact hescapable hspecial
    have hplain : literal (c :: rest) = literal rest :=
      literal_plain (hordinary 34 rfl) (hordinary 96 rfl) (hordinary 36 rfl) (hordinary 92 rfl)
    have hstays : escapable c = false := by simpa using hescapable
    rw [hstays, hplain, Bool.not_false, Bool.true_and, ← hrest.settled word (held ++ [92] ++ [c])]
    simp

/-- Every text is read literally exactly when `literal` says so. -/
theorem reads_literally (before : List Token) (body : List UInt8) :
    ReadsLiterally before body := by
  induction body with
  | nil =>
      intro held slash word hheld hslash
      rw [List.nil_append, List.append_nil, List.append_nil]
      exact tokens_from_closing_iff hheld hslash
  | cons c rest ih =>
      intro held slash word hheld hslash
      rw [List.cons_append]
      rcases hslash with rfl | rfl
      · rw [List.append_nil]
        exact ih.cons_bare hheld
      · exact ih.cons_escaped hheld

/-- A quote opens a word. -/
theorem tokens_from_open (before : List Token) (rest : List UInt8) :
    tokensFrom ⟨.plain, [], none, before⟩ (34 :: rest) =
      tokensFrom (quoting [] [] before) rest := by
  have hopen : (⟨.plain, [], none, before⟩ : State).step 34 =
      some (quoting [] [] (before ++ [])) := rfl
  rw [tokens_from_cons, hopen, List.append_nil]
  rfl

/-- A text in double quotes, at the start of a word, is that word exactly when no byte of it has a
meaning of its own there. -/
theorem tokens_quoted_iff {front : List UInt8} (body : List UInt8)
    (hfront : run start front = some ⟨.plain, [], none, before⟩) :
    tokens (front ++ 34 :: (body ++ [34])) = some (before ++ [.word body]) ↔
      literal body = true := by
  rw [tokens, tokens_from_append hfront, tokens_from_open]
  exact reads_literally before body [] [] [] (Or.inl rfl) (Or.inl rfl)

/-- A quote that is not closed makes no longer word, even if another quote closes it. -/
theorem tokens_unclosed_ne {front short body : List UInt8}
    (hfront : run start front = some ⟨.plain, [], none, before⟩)
    (hshort : short.length ≤ body.length) :
    tokens (front ++ 34 :: short) ≠ some (before ++ [.word body]) := by
  rw [tokens, tokens_from_append hfront, tokens_from_open]
  intro hwhole
  have hbound := tokens_weight hwhole
  have hdue : (quoting [] [] before).mode.due = 1 := rfl
  rw [weight_quoting, hdue] at hbound
  simp [totalSize, Token.size] at hbound
  omega

end Quoted

end Dvws.Shell
