import Mathlib.Data.List.Induction

/-!
# Objects whose tags are kept twice

A collection receives objects one after another. Each object has a key and carries a tag; beside
the collection one tag is kept for every key. Adding an object writes its tag for its key, and a
key can be given another tag without touching the objects. `objects` and `lastTag` are the two
records as functions of the changes made. They agree on every object when only additions were
made and no two of them disagree on one key, and not otherwise.
-/

namespace Dvws.Tagging

/-- A change: an object is added, or a key is given a tag. -/
inductive Change (κ τ ω : Type) where
  | added (object : ω)
  | retagged (key : κ) (tag : τ)

variable {κ τ ω : Type}

/-- The objects in the order of their additions. -/
def objects : List (Change κ τ ω) → List ω
  | [] => []
  | .added object :: rest => object :: objects rest
  | .retagged _ _ :: rest => objects rest

@[simp] theorem objects_nil : objects ([] : List (Change κ τ ω)) = [] := rfl

/-- Later changes add their objects behind. -/
theorem objects_append (first second : List (Change κ τ ω)) :
    objects (first ++ second) = objects first ++ objects second := by
  induction first with
  | nil => rfl
  | cons change rest ih =>
      cases change with
      | added object => exact congrArg (object :: ·) ih
      | retagged key tag => exact ih

@[simp] theorem objects_concat_added (history : List (Change κ τ ω)) (object : ω) :
    objects (history ++ [.added object]) = objects history ++ [object] :=
  objects_append ..

@[simp] theorem objects_concat_retagged (history : List (Change κ τ ω)) (key : κ) (tag : τ) :
    objects (history ++ [.retagged key tag]) = objects history := by
  rw [objects_append]
  exact List.append_nil _

/-- After additions only, the objects are those that were added. -/
theorem objects_of_added (os : List ω) :
    objects (os.map Change.added : List (Change κ τ ω)) = os := by
  induction os with
  | nil => rfl
  | cons o os ih => exact congrArg (o :: ·) ih

variable [DecidableEq κ] (keyOf : ω → κ) (tagOf : ω → τ)

/-- The tag after one more change. -/
def writeTag (key : κ) (before : Option τ) : Change κ τ ω → Option τ
  | .added object => if keyOf object = key then some (tagOf object) else before
  | .retagged key' tag => if key' = key then some tag else before

/-- The tag written last for a key. -/
def lastTag (history : List (Change κ τ ω)) (key : κ) : Option τ :=
  history.foldl (writeTag keyOf tagOf key) none

@[simp] theorem lastTag_nil (key : κ) : lastTag keyOf tagOf [] key = none := rfl

@[simp] theorem lastTag_concat (history : List (Change κ τ ω)) (change : Change κ τ ω) (key : κ) :
    lastTag keyOf tagOf (history ++ [change]) key =
      writeTag keyOf tagOf key (lastTag keyOf tagOf history key) change := by
  simp [lastTag]

/-- After additions only, the tag of a key is the tag of an object with that key, and every key of
an object has a tag. -/
theorem lastTag_of_added (os : List ω) (key : κ) :
    (∀ tag, lastTag keyOf tagOf (os.map .added) key = some tag →
        ∃ o ∈ os, keyOf o = key ∧ tagOf o = tag) ∧
      (lastTag keyOf tagOf (os.map .added) key = none → ∀ o ∈ os, keyOf o ≠ key) := by
  induction os using List.reverseRecOn with
  | nil => simp
  | append_singleton os last ih =>
      rw [List.map_append, List.map_singleton, lastTag_concat]
      obtain ⟨hsome, hnone⟩ := ih
      unfold writeTag
      by_cases hkey : keyOf last = key
      · simp only [if_pos hkey]
        exact ⟨fun tag htag => ⟨last, by simp, hkey, Option.some.inj htag⟩, fun h => nomatch h⟩
      · simp only [if_neg hkey]
        refine ⟨fun tag htag => ?_, fun h o ho => ?_⟩
        · obtain ⟨o, ho, hrest⟩ := hsome tag htag
          exact ⟨o, List.mem_append_left _ ho, hrest⟩
        · obtain ho | ho := List.mem_append.mp ho
          · exact hnone h o ho
          · exact List.mem_singleton.mp ho ▸ hkey

/-- After additions only, every object agrees with the tag kept for its key exactly when all
objects with one key agree. -/
theorem consistent_iff_agree (os : List ω) :
    (∀ o ∈ os, lastTag keyOf tagOf (os.map .added) (keyOf o) = some (tagOf o)) ↔
      ∀ o ∈ os, ∀ o' ∈ os, keyOf o = keyOf o' → tagOf o = tagOf o' := by
  constructor
  · intro h o ho o' ho' hkey
    have hsame := h o ho
    rw [hkey, h o' ho'] at hsame
    exact (Option.some.inj hsame).symm
  · intro h o ho
    obtain ⟨hsome, hnone⟩ := lastTag_of_added keyOf tagOf os (keyOf o)
    cases htag : lastTag keyOf tagOf (os.map .added) (keyOf o) with
    | none => exact absurd rfl (hnone htag o ho)
    | some tag =>
        obtain ⟨o', ho', hkey, hlast⟩ := hsome tag htag
        rw [← hlast, h o ho o' ho' hkey.symm]

end Dvws.Tagging
