import Mathlib.Data.List.Induction

/-!
# Runs of a total step function

`runAll` executes a list of steps none of which can fail. Two rules carry facts along a run:
`runAll_invariant` for one system, and `runAll_simulation` for two that execute the same steps.
`holds_iff_setAndKept` is about a property that some steps set and some steps clear: if every
other step leaves it as it is, then it holds after a run exactly when some step set it and no
later step cleared it.
-/

namespace Dvws.Transition

variable {σ ι : Type*}

/-- Execute all steps in order. -/
def runAll (step : σ → ι → σ) (start : σ) (ls : List ι) : σ := ls.foldl step start

@[simp] theorem runAll_nil (step : σ → ι → σ) (start : σ) : runAll step start [] = start := rfl

@[simp] theorem runAll_concat (step : σ → ι → σ) (start : σ) (ls : List ι) (l : ι) :
    runAll step start (ls ++ [l]) = step (runAll step start ls) l := by
  simp [runAll]

/-- A state predicate that every step keeps holds after every run. -/
theorem runAll_invariant {step : σ → ι → σ} {start : σ} {Inv : σ → Prop} (hstart : Inv start)
    (hstep : ∀ s l, Inv s → Inv (step s l)) (ls : List ι) : Inv (runAll step start ls) := by
  induction ls using List.reverseRecOn with
  | nil => exact hstart
  | append_singleton ls l ih =>
      rw [runAll_concat]
      exact hstep _ _ ih

/-- Two systems that start related, and stay related by every step, are related after every run
of the same steps. -/
theorem runAll_simulation {τ : Type*} {step : σ → ι → σ} {start : σ} {step' : τ → ι → τ}
    {start' : τ} {R : σ → τ → Prop} (hstart : R start start')
    (hstep : ∀ s t l, R s t → R (step s l) (step' t l)) (ls : List ι) :
    R (runAll step start ls) (runAll step' start' ls) := by
  induction ls using List.reverseRecOn with
  | nil => exact hstart
  | append_singleton ls l ih =>
      rw [runAll_concat, runAll_concat]
      exact hstep _ _ _ ih

/-- Some step of the run set the property, and no later step cleared it. -/
def SetAndKept (step : σ → ι → σ) (start : σ) (sets clears : σ → ι → Prop) (ls : List ι) :
    Prop :=
  ∃ before l after, ls = before ++ l :: after ∧ sets (runAll step start before) l ∧
    ∀ middle l' rest, after = middle ++ l' :: rest →
      ¬ clears (runAll step start (before ++ l :: middle)) l'

variable {step : σ → ι → σ} {start : σ} {sets clears : σ → ι → Prop}

/-- A last step that sets the property is enough. -/
theorem setAndKept_of_sets {ls : List ι} {l : ι} (h : sets (runAll step start ls) l) :
    SetAndKept step start sets clears (ls ++ [l]) :=
  ⟨ls, l, [], rfl, h, fun middle l' rest hnil => by simp at hnil⟩

/-- A last step that does not set the property matters only by clearing it. -/
theorem setAndKept_concat_iff {ls : List ι} {l : ι} (h : ¬ sets (runAll step start ls) l) :
    SetAndKept step start sets clears (ls ++ [l]) ↔
      SetAndKept step start sets clears ls ∧ ¬ clears (runAll step start ls) l := by
  constructor
  · intro hrun
    obtain ⟨before, first, after, hls, hset, hkept⟩ := hrun
    induction after using List.reverseRecOn with
    | nil =>
        obtain ⟨rfl, hlast⟩ := List.append_inj' hls rfl
        obtain rfl : l = first := List.singleton_inj.mp hlast
        exact absurd hset h
    | append_singleton after last _ =>
        have hsplit : ls ++ [l] = (before ++ first :: after) ++ [last] := by
          rw [hls, List.append_assoc, List.cons_append]
        obtain ⟨rfl, hlast⟩ := List.append_inj' hsplit rfl
        obtain rfl : l = last := List.singleton_inj.mp hlast
        refine ⟨⟨before, first, after, rfl, hset, ?_⟩, hkept after l [] rfl⟩
        intro middle l' rest hafter
        refine hkept middle l' (rest ++ [l]) ?_
        rw [hafter, List.append_assoc, List.cons_append]
  · intro hrun
    obtain ⟨⟨before, first, after, rfl, hset, hkept⟩, hlast⟩ := hrun
    refine ⟨before, first, after ++ [l], by simp, hset, fun middle l' rest hafter => ?_⟩
    -- the clearing step is the last one or lies inside the run before it
    induction rest using List.reverseRecOn with
    | nil =>
        obtain ⟨rfl, hl⟩ := List.append_inj' hafter rfl
        obtain rfl : l = l' := List.singleton_inj.mp hl
        exact hlast
    | append_singleton rest last _ =>
        have hsplit : after ++ [l] = (middle ++ l' :: rest) ++ [last] := by
          rw [hafter, List.append_assoc, List.cons_append]
        exact hkept middle l' rest (List.append_inj' hsplit rfl).1

/-- The property holds after a run exactly when some step set it and no later step cleared it. -/
theorem holds_iff_setAndKept (holds : σ → Prop) (hstart : ¬ holds start)
    (hset : ∀ s l, sets s l → holds (step s l)) (hclear : ∀ s l, clears s l → ¬ holds (step s l))
    (hkeep : ∀ s l, ¬ sets s l → ¬ clears s l → (holds (step s l) ↔ holds s)) (ls : List ι) :
    holds (runAll step start ls) ↔ SetAndKept step start sets clears ls := by
  induction ls using List.reverseRecOn with
  | nil =>
      refine iff_of_false hstart ?_
      intro hrun
      obtain ⟨before, l, after, hnil, -⟩ := hrun
      simp at hnil
  | append_singleton ls l ih =>
      rw [runAll_concat]
      by_cases hsets : sets (runAll step start ls) l
      · exact iff_of_true (hset _ _ hsets) (setAndKept_of_sets hsets)
      · rw [setAndKept_concat_iff hsets]
        by_cases hclears : clears (runAll step start ls) l
        · simp [hclear _ _ hclears, hclears]
        · rw [hkeep _ _ hsets hclears, ih]
          simp [hclears]

end Dvws.Transition
