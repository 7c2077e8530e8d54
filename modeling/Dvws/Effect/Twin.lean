import Mathlib.Data.List.Basic
import Dvws.Effect.Exec

/-!
# Two computations side by side

Some events of a computation can be seen from outside (`view`). `Answers view opens x y s` compares
two computations that start in the state `s`: they come to the same value and the same state, what
is seen first of the first opens an answer, and of the second this is seen and nothing more.
`Quiet view x y s` says that nothing is seen of either. Two computations that answer once are
compared part by part: what is quiet before the answer (`Quiet.then_answers`) or behind it
(`Answers.then_quiet`) plays no part.
-/

namespace Dvws.Effect

variable {σ ε χ α β ω : Type}

/-- What can be seen of the events. -/
def shown (view : ε → Option ω) (events : List ε) : List ω := events.filterMap view

/-- Of the second is seen what opens the answer of the first. -/
structure Answers (view : ε → Option ω) (opens : ω → Prop) (x y : Exec σ ε χ α) (s : σ) :
    Prop where
  value : (y s).value = (x s).value
  state : (y s).state = (x s).state
  first : shown view (y s).events = (shown view (x s).events).take 1
  opening : ∀ w ∈ (shown view (x s).events).head?, opens w

/-- Nothing is seen of either. -/
structure Quiet (view : ε → Option ω) (x y : Exec σ ε χ α) (s : σ) : Prop where
  value : (y s).value = (x s).value
  state : (y s).state = (x s).state
  none_of_first : shown view (x s).events = []
  none_of_second : shown view (y s).events = []

variable {view : ε → Option ω} {opens : ω → Prop} {x y : Exec σ ε χ α} {f g : α → Exec σ ε χ β}
  {s : σ}

/-- Two computations that show nothing answer each other. -/
theorem Quiet.answers (h : Quiet view x y s) : Answers view opens x y s := by
  refine ⟨h.value, h.state, ?_, ?_⟩
  · rw [h.none_of_first, h.none_of_second, List.take_nil]
  · rw [h.none_of_first]
    intro w hw
    cases hw

/-- A computation of which nothing is seen is quiet beside itself. -/
theorem quiet_self (hx : shown view (x s).events = []) : Quiet view x x s := ⟨rfl, rfl, hx, hx⟩

/-- A value that is there shows nothing. -/
theorem quiet_pure (a : α) (s : σ) : Quiet view (pure a : Exec σ ε χ α) (pure a) s :=
  quiet_self rfl

/-- A pure computation shows nothing. -/
theorem quiet_lift (v : Except χ α) (s : σ) :
    Quiet view (lift v : Exec σ ε χ α) (lift v) s := quiet_self rfl

/-- Reading the state shows nothing. -/
theorem quiet_get (s : σ) : Quiet view (get : Exec σ ε χ σ) get s := quiet_self rfl

/-- Changing the state shows nothing. -/
theorem quiet_modify (f : σ → σ) (s : σ) :
    Quiet view (modify f : Exec σ ε χ Unit) (modify f) s := quiet_self rfl

/-- An event that cannot be seen shows nothing. -/
theorem quiet_emit {e : ε} (h : view e = none) (s : σ) :
    Quiet view (emit e : Exec σ ε χ Unit) (emit e) s :=
  quiet_self (List.filterMap_cons_none h)

/-- Events that cannot be seen show nothing. -/
theorem quiet_emitAll {es : List ε} (h : ∀ e ∈ es, view e = none) (s : σ) :
    Quiet view (emitAll es : Exec σ ε χ Unit) (emitAll es) s :=
  quiet_self (List.filterMap_eq_nil_iff.mpr h)

/-- What behaves without an event that can be seen, and has no result, is quiet beside another of
the kind. -/
theorem quiet_of_behaves {x y : Exec σ ε χ Unit} (hx : Behaves (fun e => view e = none) id x)
    (hy : Behaves (fun e => view e = none) id y) (s : σ) : Quiet view x y s := by
  obtain ⟨⟨⟩, hxvalue⟩ := hx.returns s
  obtain ⟨⟨⟩, hyvalue⟩ := hy.returns s
  refine ⟨by rw [hxvalue, hyvalue], ?_, ?_, ?_⟩
  · rw [hx.state_eq, hy.state_eq]
  · exact List.filterMap_eq_nil_iff.mpr (hx.events s)
  · exact List.filterMap_eq_nil_iff.mpr (hy.events s)

/-- What is shown of a sequence is what is shown of its parts. -/
theorem shown_bind {middle : σ} {a : α} {first : List ε} (h : x s = ⟨.ok a, middle, first⟩)
    (f : α → Exec σ ε χ β) :
    shown view ((x >>= f) s).events = shown view first ++ shown view (f a middle).events := by
  rw [bind_run_of_ok h]
  exact List.filterMap_append

/-- Two sequences whose first parts end alike both end there with the same exception, or go on
from the same value and state. -/
theorem bind_alike (hvalue : (y s).value = (x s).value) (hstate : (y s).state = (x s).state)
    (f g : α → Exec σ ε χ β) :
    (∃ exn, (x >>= f) s = ⟨.error exn, (x s).state, (x s).events⟩ ∧
        (y >>= g) s = ⟨.error exn, (x s).state, (y s).events⟩) ∨
      ∃ a, (x s).value = .ok a ∧ x s = ⟨.ok a, (x s).state, (x s).events⟩ ∧
        y s = ⟨.ok a, (x s).state, (y s).events⟩ := by
  generalize hxs : x s = xout at *
  generalize hys : y s = yout at *
  obtain ⟨value, middle, events⟩ := xout
  obtain ⟨value', middle', events'⟩ := yout
  obtain rfl : value' = value := hvalue
  obtain rfl : middle' = middle := hstate
  cases value' with
  | error exn => exact Or.inl ⟨exn, bind_run_of_error hxs f, bind_run_of_error hys g⟩
  | ok a => exact Or.inr ⟨a, rfl, rfl, rfl⟩

/-- Sequences that end with the exception of a quiet first step are quiet. -/
theorem Quiet.of_error {x' y' : Exec σ ε χ β} {exn : χ} (hx : Quiet view x y s)
    (h : x' s = ⟨.error exn, (x s).state, (x s).events⟩)
    (h' : y' s = ⟨.error exn, (x s).state, (y s).events⟩) : Quiet view x' y' s := by
  constructor
  · rw [h, h']
  · rw [h, h']
  · rw [h, hx.none_of_first]
  · rw [h', hx.none_of_second]

/-- Quiet steps one after another are quiet. -/
theorem Quiet.bind (hx : Quiet view x y s)
    (hf : ∀ a middle, (x s).value = .ok a → (x s).state = middle →
      Quiet view (f a) (g a) middle) : Quiet view (x >>= f) (y >>= g) s := by
  rcases bind_alike hx.value hx.state f g with ⟨exn, hends, hends'⟩ | ⟨a, ha, hxs, hys⟩
  · exact hx.of_error hends hends'
  · have hrest := hf a _ ha rfl
    constructor
    · rw [bind_run_of_ok hxs, bind_run_of_ok hys, hrest.value]
    · rw [bind_run_of_ok hxs, bind_run_of_ok hys, hrest.state]
    · rw [shown_bind hxs, hx.none_of_first, hrest.none_of_first, List.nil_append]
    · rw [shown_bind hys, hx.none_of_second, hrest.none_of_second, List.nil_append]

/-- What is quiet before an answer plays no part. -/
theorem Quiet.then_answers (hx : Quiet view x y s)
    (hf : ∀ a middle, (x s).value = .ok a → (x s).state = middle →
      Answers view opens (f a) (g a) middle) : Answers view opens (x >>= f) (y >>= g) s := by
  rcases bind_alike hx.value hx.state f g with ⟨exn, hends, hends'⟩ | ⟨a, ha, hxs, hys⟩
  · exact (hx.of_error hends hends').answers
  · have hrest := hf a _ ha rfl
    constructor
    · rw [bind_run_of_ok hxs, bind_run_of_ok hys, hrest.value]
    · rw [bind_run_of_ok hxs, bind_run_of_ok hys, hrest.state]
    · rw [shown_bind hxs, shown_bind hys, hx.none_of_first, hx.none_of_second, List.nil_append,
        List.nil_append, hrest.first]
    · rw [shown_bind hxs, hx.none_of_first, List.nil_append]
      exact hrest.opening

/-- What is quiet behind an answer plays no part. -/
theorem Answers.then_quiet (hx : Answers view opens x y s)
    (hf : ∀ a middle, (x s).value = .ok a → (x s).state = middle →
      Quiet view (f a) (g a) middle) : Answers view opens (x >>= f) (y >>= g) s := by
  rcases bind_alike hx.value hx.state f g with ⟨exn, hends, hends'⟩ | ⟨a, ha, hxs, hys⟩
  · constructor
    · rw [hends, hends']
    · rw [hends, hends']
    · rw [hends, hends', hx.first]
    · rw [hends]
      exact hx.opening
  · have hrest := hf a _ ha rfl
    constructor
    · rw [bind_run_of_ok hxs, bind_run_of_ok hys, hrest.value]
    · rw [bind_run_of_ok hxs, bind_run_of_ok hys, hrest.state]
    · rw [shown_bind hxs, shown_bind hys, hrest.none_of_first, hrest.none_of_second,
        List.append_nil, List.append_nil, hx.first]
    · rw [shown_bind hxs, hrest.none_of_first, List.append_nil]
      exact hx.opening

/-- Computations that choose alike between two answers answer each other. -/
theorem Answers.ite {c : Prop} [Decidable c] {x' y' : Exec σ ε χ α}
    (hx : c → Answers view opens x y s) (hx' : ¬ c → Answers view opens x' y' s) :
    Answers view opens (if c then x else x') (if c then y else y') s := by
  by_cases h : c
  · rw [if_pos h, if_pos h]
    exact hx h
  · rw [if_neg h, if_neg h]
    exact hx' h

end Dvws.Effect
