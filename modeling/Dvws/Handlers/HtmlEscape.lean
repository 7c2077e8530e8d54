import Dvws.Codec.Letters
import Dvws.Handlers.Echo
import Dvws.Handlers.StaticFiles

/-!
# Escaped HTML

The echo page and the directory listing have an `html_escape` each, which write four characters as
entities and copy every other byte. The reader of entities takes one of the four off a text, or one
byte where none starts, and so undoes the escape byte by byte; `html_escape_is_reversible` puts
together what holds of the escaped text.
-/

namespace Dvws

open Codec

namespace Html

/-- The entities of `html_escape`, with the characters that they stand for. -/
def entities : List (Bytes × UInt8) :=
  [(lit "&amp;", 38), (lit "&lt;", 60), (lit "&gt;", 62), (lit "&quot;", 34)]

/-- The character at the front of a text: that of the entity that starts there, if any. -/
def nextCharacter (text : Bytes) : Option (UInt8 × Bytes) :=
  match entities.find? fun entity => entity.1.isPrefixOf text with
  | some (name, c) => some (c, text.drop name.length)
  | none =>
      match text with
      | [] => none
      | c :: rest => some (c, rest)

/-- An entity is more than nothing. -/
theorem length_entity_pos {entity : Bytes × UInt8} (h : entity ∈ entities) :
    0 < entity.1.length := by
  simp only [entities, List.mem_cons, List.not_mem_nil, or_false] at h
  rcases h with rfl | rfl | rfl | rfl <;> decide

/-- The reader of entities. -/
def entityReader : Reader UInt8 UInt8 where
  next := nextCharacter
  shorter := by
    intro text c rest hnext
    unfold nextCharacter at hnext
    split at hnext
    · rename_i name c hfind
      have hpos : 0 < name.length := length_entity_pos (List.mem_of_find?_eq_some hfind)
      have hfound := List.find?_some hfind
      have hstarts : name <+: text := List.isPrefixOf_iff_prefix.mp hfound
      have hlength := hstarts.length_le
      cases hnext
      rw [List.length_drop]
      omega
    · split at hnext
      · cases hnext
      · cases hnext
        exact Nat.lt_succ_self _

/-- Replace the entities of a text by their characters, in one pass from left to right. -/
def replaceEntities (text : Bytes) : Bytes := (entityReader.read text).1

/-- An entity is read as its character, whatever follows it. -/
theorem next_of_entity {entity : Bytes × UInt8} (h : entity ∈ entities) (rest : Bytes) :
    nextCharacter (entity.1 ++ rest) = some (entity.2, rest) := by
  simp only [entities, List.mem_cons, List.not_mem_nil, or_false] at h
  rcases h with rfl | rfl | rfl | rfl <;> rfl

/-- An entity starts with its only ampersand. -/
theorem exists_of_entity {entity : Bytes × UInt8} (h : entity ∈ entities) :
    ∃ tail, entity.1 = 38 :: tail ∧ 38 ∉ tail := by
  simp only [entities, List.mem_cons, List.not_mem_nil, or_false] at h
  rcases h with rfl | rfl | rfl | rfl
  · exact ⟨lit "amp;", rfl, by decide⟩
  · exact ⟨lit "lt;", rfl, by decide⟩
  · exact ⟨lit "gt;", rfl, by decide⟩
  · exact ⟨lit "quot;", rfl, by decide⟩

/-- A byte that starts no entity is read as itself. -/
theorem next_of_ne_ampersand {c : UInt8} (h : c ≠ 38) (rest : Bytes) :
    nextCharacter (c :: rest) = some (c, rest) := by
  have hnone : entities.find? (fun entity => entity.1.isPrefixOf (c :: rest)) = none := by
    refine List.find?_eq_none.mpr fun entity hentity hstarts => ?_
    obtain ⟨tail, hname, -⟩ := exists_of_entity hentity
    have hprefix : entity.1 <+: c :: rest := List.isPrefixOf_iff_prefix.mp hstarts
    rw [hname] at hprefix
    exact h (List.cons_prefix_cons.mp hprefix).1.symm
  unfold nextCharacter
  rw [hnone]

end Html

namespace Echo

open Html

/-- A step of `html_escape` writes an entity, or a byte that needs none. -/
theorem escape_byte_cases (c : UInt8) :
    (escapeByte c, c) ∈ entities ∨
      escapeByte c = [c] ∧ c ≠ 38 ∧ c ≠ 60 ∧ c ≠ 62 ∧ c ≠ 34 := by
  unfold escapeByte
  split
  · subst c; exact Or.inl (by decide)
  · split
    · subst c; exact Or.inl (by decide)
    · split
      · subst c; exact Or.inl (by decide)
      · split
        · subst c; exact Or.inl (by decide)
        · exact Or.inr ⟨rfl, by assumption, by assumption, by assumption, by assumption⟩

/-- The reader of entities undoes each step. -/
theorem entity_reader_undoes : entityReader.Undoes escapeByte id := by
  intro c rest
  rcases escape_byte_cases c with hentity | hplain
  · exact next_of_entity hentity rest
  · obtain ⟨hword, hne, -⟩ := hplain
    rw [hword]
    exact next_of_ne_ampersand hne rest

/-- No byte of a step is special but the ampersand. -/
theorem not_special_of_mem_escape_byte {c d : UInt8} (h : d ∈ escapeByte c) :
    d ≠ 60 ∧ d ≠ 62 ∧ d ≠ 34 := by
  rcases escape_byte_cases c with hentity | hplain
  · simp only [entities, List.mem_cons, List.not_mem_nil, or_false, Prod.mk.injEq] at hentity
    rcases hentity with ⟨hword, -⟩ | ⟨hword, -⟩ | ⟨hword, -⟩ | ⟨hword, -⟩
    all_goals
      rw [hword] at h
      exact forall_mem_of_all (p := fun d => d ≠ 60 ∧ d ≠ 62 ∧ d ≠ 34) (by decide) d h
  · obtain ⟨hword, -, hfree⟩ := hplain
    rw [hword, List.mem_singleton] at h
    rw [h]
    exact hfree

/-- An ampersand in a step is its first byte, and the step is an entity. -/
theorem entity_of_escape_byte {c : UInt8} {front rest : Bytes}
    (h : escapeByte c = front ++ 38 :: rest) :
    front = [] ∧ ∃ entity ∈ entities, entity.1 = 38 :: rest := by
  rcases escape_byte_cases c with hentity | hplain
  · obtain ⟨tail, hname, hfree⟩ := exists_of_entity hentity
    rw [h] at hname
    cases front with
    | nil => exact ⟨rfl, _, hentity, h⟩
    | cons d front =>
        obtain ⟨-, rfl⟩ := List.cons.inj hname
        exact absurd (List.mem_append_right _ List.mem_cons_self) hfree
  · obtain ⟨hword, hne, -⟩ := hplain
    have hmem : (38 : UInt8) ∈ escapeByte c := by
      rw [h]
      exact List.mem_append_right _ List.mem_cons_self
    rw [hword, List.mem_singleton] at hmem
    exact absurd hmem.symm hne

/-- Every ampersand of an escaped text starts an entity. -/
theorem entity_of_html_escape {s front rest : Bytes} (h : htmlEscape s = front ++ 38 :: rest) :
    ∃ entity ∈ entities, entity.1 <+: 38 :: rest := by
  unfold htmlEscape at h
  induction s generalizing front with
  | nil => simp at h
  | cons c s ih =>
      rw [List.flatMap_cons] at h
      rcases List.append_eq_append_iff.mp h with ⟨more, hfront, hrest⟩ | ⟨more, hword, hrest⟩
      · exact ih hrest
      · cases more with
        | nil => exact @ih [] hrest.symm
        | cons d more =>
            -- the ampersand stands in the word of `c`
            obtain rfl := (List.cons.inj hrest).1
            obtain ⟨-, entity, hentity, hname⟩ := entity_of_escape_byte hword
            refine ⟨entity, hentity, ?_⟩
            rw [hname, hrest]
            exact List.prefix_append _ _

/-- Replacing the entities undoes the escape. -/
theorem replace_html_escape (s : Bytes) : replaceEntities (htmlEscape s) = s := by
  have hend : entityReader.next [] = none := rfl
  have hread := entity_reader_undoes.read_flatMap hend s
  rw [List.append_nil, List.map_id] at hread
  rw [replaceEntities, htmlEscape, hread]

end Echo

/-- An escaped text has none of the characters that end a text or an attribute of HTML, its
ampersands start entities, and what it was made of can be read back; the two copies of
`html_escape` are the same function. -/
theorem html_escape_is_reversible :
    (∀ s : Bytes, (∀ c ∈ Echo.htmlEscape s, c ≠ 60 ∧ c ≠ 62 ∧ c ≠ 34) ∧
      (∀ front rest, Echo.htmlEscape s = front ++ 38 :: rest →
        ∃ entity ∈ Html.entities, entity.1 <+: 38 :: rest) ∧
      Html.replaceEntities (Echo.htmlEscape s) = s ∧
      StaticFiles.htmlEscape s = Echo.htmlEscape s) ∧
    Function.Injective Echo.htmlEscape := by
  refine ⟨fun s => ⟨fun c hc => ?_, fun front rest h => Echo.entity_of_html_escape h,
    Echo.replace_html_escape s, rfl⟩, ?_⟩
  · obtain ⟨d, -, hd⟩ := List.mem_flatMap.mp hc
    exact Echo.not_special_of_mem_escape_byte hd
  · exact Echo.entity_reader_undoes.flatMap_injective rfl Function.injective_id

end Dvws
