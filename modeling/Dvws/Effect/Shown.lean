import Dvws.Effect.Twin

/-!
# What a computation shows

Some events of a computation can be seen from outside (`view`). `Shows view keep x ws` says that
from every state `x` returns, leaves the part `keep` of the state as it was, and shows exactly the
list that `ws` gives for this part. The rules follow the ways to build a computation; one that
shows nothing plays no part before or behind another.
-/

namespace Dvws.Effect

variable {σ ε χ α β ω κ : Type}

/-- The computation returns, keeps this part of the state, and shows what the part determines. -/
structure Shows (view : ε → Option ω) (keep : σ → κ) (x : Exec σ ε χ α) (ws : κ → List ω) :
    Prop where
  returns : ∀ s, ∃ a, (x s).value = .ok a
  state : ∀ s, keep (x s).state = keep s
  events : ∀ s, shown view (x s).events = ws (keep s)

namespace Shows

variable {view : ε → Option ω} {keep : σ → κ} {x : Exec σ ε χ α} {ws ws' : κ → List ω}

/-- A computation without events that can be seen shows nothing. -/
theorem of_behaves (hx : Behaves (fun e => view e = none) keep x) :
    Shows view keep x fun _ => [] :=
  ⟨hx.returns, hx.state, fun s => List.filterMap_eq_nil_iff.mpr (hx.events s)⟩

/-- An event that can be seen shows what is seen of it. -/
theorem emit {e : ε} {w : ω} (h : view e = some w) :
    Shows view keep (Effect.emit e : Exec σ ε χ Unit) fun _ => [w] :=
  ⟨fun _ => ⟨(), rfl⟩, fun _ => rfl, fun _ => List.filterMap_cons_some h⟩

/-- Two computations, one after the other, show what the first shows and then what the
second does. -/
theorem bind {f : α → Exec σ ε χ β} (hx : Shows view keep x ws)
    (hf : ∀ a, Shows view keep (f a) ws') :
    Shows view keep (x >>= f) fun k => ws k ++ ws' k := by
  have hrun : ∀ s, ∃ a middle first, x s = ⟨.ok a, middle, first⟩ ∧ keep middle = keep s ∧
      shown view first = ws (keep s) := by
    intro s
    obtain ⟨a, ha⟩ := hx.returns s
    have hstate := hx.state s
    have hevents := hx.events s
    generalize x s = out at ha hstate hevents
    obtain ⟨value, middle, first⟩ := out
    cases ha
    exact ⟨a, middle, first, rfl, hstate, hevents⟩
  refine ⟨fun s => ?_, fun s => ?_, fun s => ?_⟩
  all_goals obtain ⟨a, middle, first, h, hmiddle, hfirst⟩ := hrun s
  · rw [bind_run_of_ok h]
    exact (hf a).returns middle
  · rw [bind_run_of_ok h]
    exact ((hf a).state middle).trans hmiddle
  · rw [shown_bind h, hfirst, (hf a).events middle, hmiddle]

/-- What comes before a computation and shows nothing does not change what is shown. -/
theorem after {f : α → Exec σ ε χ β} (hx : Behaves (fun e => view e = none) keep x)
    (hf : ∀ a, Shows view keep (f a) ws) : Shows view keep (x >>= f) ws :=
  (of_behaves hx).bind hf

/-- What comes behind a computation and shows nothing does not change what is shown. -/
theorem before {f : α → Exec σ ε χ β} (hx : Shows view keep x ws)
    (hf : ∀ a, Behaves (fun e => view e = none) keep (f a)) : Shows view keep (x >>= f) ws := by
  have hboth := hx.bind fun a => of_behaves (hf a)
  simp only [List.append_nil] at hboth
  exact hboth

/-- A choice between two computations that show the same shows that. -/
theorem ite {c : Prop} [Decidable c] {y : Exec σ ε χ α} (hx : c → Shows view keep x ws)
    (hy : ¬ c → Shows view keep y ws) : Shows view keep (if c then x else y) ws := by
  split
  · next h => exact hx h
  · next h => exact hy h

/-- What is shown may be told in another way. -/
theorem congr (hx : Shows view keep x ws) (h : ∀ k, ws k = ws' k) : Shows view keep x ws' :=
  ⟨hx.returns, hx.state, fun s => (hx.events s).trans (h (keep s))⟩

end Shows

end Dvws.Effect
