import Mathlib.Data.List.Basic

/-!
# Texts that are read item by item

A text in which every item is written as a word of its own is read by taking one word after the
other off its front. `Reader` takes one word, `Reader.read` as many as there are. When a reader
takes the word of every item off whatever follows it (`Reader.Undoes`), the whole text is read back
(`read_flatMap`), and no two lists of items are written alike (`Undoes.flatMap_injective`).
-/

namespace Dvws.Codec

variable {α β γ : Type}

/-- Takes one word off the front of a text: what it stands for, and the text behind it. -/
structure Reader (β γ : Type) where
  next : List β → Option (γ × List β)
  shorter : ∀ {text item rest}, next text = some (item, rest) → rest.length < text.length

namespace Reader

/-- Read words as long as there is one: what they stand for, and the text behind them. -/
def read (reader : Reader β γ) (text : List β) : List γ × List β :=
  match h : reader.next text with
  | none => ([], text)
  | some (item, rest) =>
      have := reader.shorter h
      let (items, left) := reader.read rest
      (item :: items, left)
termination_by text.length

variable {reader : Reader β γ} {text rest : List β} {item : γ}

/-- Reading stops where no word starts. -/
theorem read_of_none (h : reader.next text = none) : reader.read text = ([], text) := by
  rw [read]
  split
  · rfl
  · rename_i hsome
    rw [h] at hsome
    cases hsome

/-- Reading goes on behind a word. -/
theorem read_of_some (h : reader.next text = some (item, rest)) :
    reader.read text = (item :: (reader.read rest).1, (reader.read rest).2) := by
  rw [read]
  split
  · rename_i hnone
    rw [h] at hnone
    cases hnone
  · rename_i found left hsome
    rw [h] at hsome
    cases hsome
    rfl

/-- The reader takes the word of every item off whatever follows it. -/
def Undoes (reader : Reader β γ) (word : α → List β) (meaning : α → γ) : Prop :=
  ∀ item rest, reader.next (word item ++ rest) = some (meaning item, rest)

variable {word : α → List β} {meaning : α → γ}

/-- Words are read back up to a text in which no word starts. -/
theorem Undoes.read_flatMap (h : reader.Undoes word meaning) (hend : reader.next rest = none)
    (items : List α) :
    reader.read (items.flatMap word ++ rest) = (items.map meaning, rest) := by
  induction items with
  | nil => exact read_of_none hend
  | cons item items ih =>
      rw [List.flatMap_cons, List.append_assoc, read_of_some (h item _), ih, List.map_cons]

/-- Different lists of items are not written alike. -/
theorem Undoes.flatMap_injective (h : reader.Undoes word meaning)
    (hend : reader.next [] = none) (hmeaning : Function.Injective meaning) :
    Function.Injective fun items : List α => items.flatMap word := by
  intro items items' hsame
  have hread := h.read_flatMap hend items
  have hread' := h.read_flatMap hend items'
  rw [show items.flatMap word = items'.flatMap word from hsame, hread'] at hread
  exact (List.map_injective_iff.mpr hmeaning (congrArg Prod.fst hread)).symm

end Reader

end Dvws.Codec
