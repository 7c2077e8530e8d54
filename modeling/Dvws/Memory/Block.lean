import Mathlib.Data.List.Basic

/-!
# Blocks of memory

A block is what an allocation returns: cells that hold nothing until they are written. A store
outside the block and a load of a cell that was never written are faults, so a computation that
returns has made none. `store_append` is the rule for code that fills a block from front to back.
-/

namespace Dvws.Memory

/-- What goes wrong in memory. -/
inductive Fault where
  | outOfBounds
  | uninitialised
  deriving DecidableEq, Repr

/-- Cells of a block; a cell without a value was never written. -/
abbrev Block (β : Type) := List (Option β)

variable {β : Type}

@[simp] theorem pure_fault {α : Type} (a : α) : (pure a : Except Fault α) = .ok a := rfl

@[simp] theorem bind_fault {α γ : Type} (a : α) (f : α → Except Fault γ) :
    ((.ok a : Except Fault α) >>= f) = f a := rfl

/-- A block just after its allocation. -/
def fresh (size : Nat) : Block β := List.replicate size none

/-- A block that holds values in all its cells. -/
def filled (values : List β) : Block β := values.map some

/-- Write one cell. -/
def store (block : Block β) (i : Nat) (value : β) : Except Fault (Block β) :=
  if i < block.length then .ok (block.set i (some value)) else .error .outOfBounds

/-- Write the cell behind those written so far. -/
theorem store_append (front : Block β) (cell : Option β) (rest : Block β) (value : β) :
    store (front ++ cell :: rest) front.length value = .ok (front ++ some value :: rest) := by
  have hbound : front.length < (front ++ cell :: rest).length := by simp
  rw [store, if_pos hbound, List.set_append_right _ _ (Nat.le_refl _), Nat.sub_self,
    List.set_cons_zero]

/-- Write values to consecutive cells. -/
def storeAll (block : Block β) (i : Nat) : List β → Except Fault (Block β)
  | [] => pure block
  | value :: values => do
      let block ← store block i value
      storeAll block (i + 1) values

/-- A store stays inside the block and leaves its size alone. -/
theorem length_of_store {block block' : Block β} {i : Nat} {value : β}
    (h : store block i value = .ok block') : i < block.length ∧ block'.length = block.length := by
  unfold store at h
  split at h
  · rename_i hbound
    cases h
    exact ⟨hbound, List.length_set⟩
  · cases h

/-- Consecutive stores keep the length of the block. -/
theorem length_of_store_all {block block' : Block β} {i : Nat} {values : List β}
    (h : storeAll block i values = .ok block') : block'.length = block.length := by
  induction values generalizing block i with
  | nil => cases h; rfl
  | cons value values ih =>
      rw [storeAll] at h
      cases hstore : store block i value with
      | error fault =>
          rw [hstore] at h
          cases h
      | ok middle =>
          rw [hstore, bind_fault] at h
          rw [ih h, (length_of_store hstore).2]

/-- Consecutive stores are possible exactly when they all lie inside the block. -/
theorem store_all_ok_iff {block : Block β} {i : Nat} {values : List β} :
    (∃ block', storeAll block i values = .ok block') ↔
      values = [] ∨ i + values.length ≤ block.length := by
  induction values generalizing block i with
  | nil => exact iff_of_true ⟨block, rfl⟩ (Or.inl rfl)
  | cons value values ih =>
      rw [or_iff_right (List.cons_ne_nil value values), List.length_cons, storeAll, store]
      split
      · rename_i hbound
        rw [bind_fault, ih, List.length_set]
        constructor
        · rintro (rfl | hroom)
          · exact hbound
          · omega
        · intro hroom
          exact Or.inr (by omega)
      · rename_i hbound
        refine iff_of_false (fun hsome => ?_) (by omega)
        obtain ⟨block', hblock⟩ := hsome
        cases hblock

/-- Consecutive stores fill the block from where they start. -/
theorem store_all_append (front rest : Block β) {values : List β}
    (h : values.length ≤ rest.length) :
    storeAll (front ++ rest) front.length values =
      .ok (front ++ filled values ++ rest.drop values.length) := by
  induction values generalizing front rest with
  | nil => simp [storeAll, filled]
  | cons value values ih =>
      cases rest with
      | nil => simp at h
      | cons cell rest =>
          have hnext := ih (front ++ [some value]) rest (by simpa using h)
          rw [List.length_append, List.length_singleton] at hnext
          rw [storeAll, store_append, bind_fault, List.append_cons, hnext]
          simp [filled]

/-- Read one cell. -/
def load (block : Block β) (i : Nat) : Except Fault β :=
  match block[i]? with
  | none => .error .outOfBounds
  | some none => .error .uninitialised
  | some (some value) => .ok value

/-- Read consecutive cells. -/
def loadAll (block : Block β) (i : Nat) : Nat → Except Fault (List β)
  | 0 => pure []
  | count + 1 => do
      let value ← load block i
      let values ← loadAll block (i + 1) count
      pure (value :: values)

/-- A cell that is read lies inside the block. -/
theorem lt_of_load {block : Block β} {i : Nat} {value : β} (h : load block i = .ok value) :
    i < block.length := by
  unfold load at h
  cases hcell : block[i]? with
  | none =>
      rw [hcell] at h
      cases h
  | some cell => exact (List.getElem?_eq_some_iff.mp hcell).1

/-- Consecutive cells that are read lie inside the block. -/
theorem le_of_load_all {block : Block β} {i count : Nat} {values : List β}
    (h : loadAll block i count = .ok values) (hcount : count ≠ 0) : i + count ≤ block.length := by
  induction count generalizing i values with
  | zero => exact absurd rfl hcount
  | succ count ih =>
      rw [loadAll] at h
      cases hload : load block i with
      | error fault =>
          rw [hload] at h
          cases h
      | ok value =>
          have hfirst := lt_of_load hload
          rw [hload, bind_fault] at h
          cases hrest : loadAll block (i + 1) count with
          | error fault =>
              rw [hrest] at h
              cases h
          | ok rest =>
              by_cases hlast : count = 0
              · omega
              · have hmore := ih hrest hlast
                omega

/-- What is read of a filled block is what it was filled with. -/
theorem load_all_filled {values : List β} {i count : Nat} (h : i + count ≤ values.length) :
    loadAll (filled values) i count = .ok ((values.drop i).take count) := by
  induction count generalizing i with
  | zero => rw [loadAll, List.take_zero]; rfl
  | succ count ih =>
      have hlt : i < values.length := by omega
      have hload : load (filled values) i = .ok values[i] := by
        rw [load, filled, List.getElem?_map, List.getElem?_eq_getElem hlt]
        rfl
      rw [loadAll, hload, bind_fault, ih (by omega), bind_fault, List.drop_eq_getElem_cons hlt,
        List.take_succ_cons]
      rfl

end Dvws.Memory
