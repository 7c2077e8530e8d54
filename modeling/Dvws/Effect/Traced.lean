import Dvws.Effect.Exec

/-!
# Computations that record what they do

A computation without a state, whose events are a record of what it does on the way to its value:
the positions it looks at, the cells it writes. `Agrees sound x value` says that `x` ends with this
value, known from a definition that records nothing, and that everything it records is sound. The
rules follow the ways to build a computation.
-/

namespace Dvws.Effect

variable {ε χ α β : Type}

/-- A computation that records what it does. -/
abbrev Traced (ε χ α : Type) : Type := Exec Unit ε χ α

/-- What was recorded stays in the record. -/
theorem mem_events_bind {x : Traced ε χ α} {e : ε} (h : e ∈ (x ()).events)
    (f : α → Traced ε χ β) : e ∈ ((x >>= f) ()).events := by
  rcases hrun : x () with ⟨value | a, state, first⟩
  · rw [bind_run_of_error hrun]
    rwa [hrun] at h
  · rw [bind_run_of_ok hrun]
    rw [hrun] at h
    exact List.mem_append_left _ h

/-- A computation ends with this value, and everything that it records is sound. -/
structure Agrees (sound : ε → Prop) (x : Traced ε χ α) (value : Except χ α) : Prop where
  value : (x ()).value = value
  sound : ∀ e ∈ (x ()).events, sound e

namespace Agrees

variable {sound : ε → Prop} {x : Traced ε χ α}

/-- A value that is already there records nothing and agrees with itself. -/
theorem pure (a : α) : Agrees sound (Pure.pure a : Traced ε χ α) (.ok a) :=
  ⟨rfl, fun _ h => nomatch h⟩

/-- Computations that agree, one after another, agree. -/
theorem bind {f : α → Traced ε χ β} {a : α} {value : Except χ β} (hx : Agrees sound x (.ok a))
    (hf : Agrees sound (f a) value) : Agrees sound (x >>= f) value := by
  have hrun : x () = ⟨.ok a, (), (x ()).events⟩ := by rw [← hx.value]
  refine ⟨?_, ?_⟩
  · rw [bind_run_of_ok hrun]
    exact hf.value
  · rw [bind_run_of_ok hrun]
    intro e he
    exact (List.mem_append.mp he).elim (hx.sound e) (hf.sound e)

/-- A sound event agrees with a computation that does nothing. -/
theorem emit {e : ε} (h : sound e) : Agrees sound (Effect.emit e : Traced ε χ Unit) (.ok ()) :=
  ⟨rfl, fun _ hmem => List.mem_singleton.mp hmem ▸ h⟩

/-- A computation that records nothing agrees with its own value. -/
theorem lift (value : Except χ α) : Agrees sound (Effect.lift value : Traced ε χ α) value :=
  ⟨rfl, fun _ h => nomatch h⟩

/-- A computation that agrees with one that returns behaves. -/
theorem behaves {value : Except χ α} (hx : Agrees sound x value)
    (hreturns : ∃ a, value = .ok a) : Behaves sound id x :=
  ⟨fun _ => hreturns.imp fun _ ha => hx.value.trans ha, fun _ => hx.sound, fun _ => rfl⟩

end Agrees

end Dvws.Effect
