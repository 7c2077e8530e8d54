import Mathlib.Data.List.Induction

/-!
# Runs of a labelled transition function

A system is given by `next s l`, the state after the step labelled `l`, or `none` when that
step is not enabled in `s`. All choices of a schedule are in the labels, so a run is a list of
labels. `run_induction` is the rule every invariant here is proved with: it carries a relation
between the labels executed so far and the state they lead to. `run_induction_of_meets` is the
same rule for the runs whose steps all meet a condition on the state they are taken in.
-/

namespace Dvws.Transition

variable {σ ι : Type*} {next : σ → ι → Option σ}

/-- Execute the labels in order; a step that is not enabled stops the run. -/
def run (next : σ → ι → Option σ) : List ι → σ → Option σ
  | [], s => some s
  | l :: ls, s => next s l >>= run next ls

@[simp] theorem run_nil (s : σ) : run next [] s = some s := rfl

/-- Executing two label lists in turn is executing their concatenation. -/
theorem run_append (first second : List ι) (s : σ) :
    run next (first ++ second) s = (run next first s >>= run next second) := by
  induction first generalizing s with
  | nil => simp
  | cons l ls ih =>
      simp only [List.cons_append, run]
      cases next s l with
      | none => rfl
      | some middle => exact ih middle

/-- A run passes through the end of every initial part of it. -/
theorem exists_run_of_append {first second : List ι} {s finish : σ}
    (h : run next (first ++ second) s = some finish) :
    ∃ middle, run next first s = some middle ∧ run next second middle = some finish := by
  rw [run_append] at h
  exact Option.bind_eq_some_iff.mp h

/-- A run ends with its last step. -/
theorem run_concat_eq_some_iff {ls : List ι} {l : ι} {s finish : σ} :
    run next (ls ++ [l]) s = some finish ↔
      ∃ middle, run next ls s = some middle ∧ next middle l = some finish := by
  simp only [run_append, bind, Option.bind_eq_some_iff]
  refine exists_congr fun middle => and_congr_right fun _ => ?_
  cases h : next middle l <;> simp [run, h]

/-- A relation between history and state that holds at the start, and that every enabled step
extends, holds after every run. -/
theorem run_induction {P : List ι → σ → Prop} {start : σ} (hstart : P [] start)
    (hstep : ∀ ls s l s', run next ls start = some s → P ls s → next s l = some s' →
      P (ls ++ [l]) s')
    {ls : List ι} {s : σ} (h : run next ls start = some s) : P ls s := by
  induction ls using List.reverseRecOn generalizing s with
  | nil =>
      cases h
      exact hstart
  | append_singleton ls l ih =>
      obtain ⟨middle, hrun, hlast⟩ := run_concat_eq_some_iff.mp h
      exact hstep ls middle l s hrun (ih hrun) hlast

/-- A state predicate that every enabled step keeps holds after every run. -/
theorem run_invariant {Inv : σ → Prop} {start : σ} (hstart : Inv start)
    (hstep : ∀ s l s', Inv s → next s l = some s' → Inv s')
    {ls : List ι} {s : σ} (h : run next ls start = some s) : Inv s :=
  run_induction (P := fun _ => Inv) hstart (fun _ s l s' _ => hstep s l s') h

/-- Every step of the run is taken in a state with `cond`. -/
def Meets (next : σ → ι → Option σ) (cond : σ → ι → Prop) (start : σ) (ls : List ι) : Prop :=
  ∀ before l after s, ls = before ++ l :: after → run next before start = some s → cond s l

variable {cond : σ → ι → Prop} {start : σ}

/-- The initial parts of a run meet what the run meets. -/
theorem Meets.of_append {first second : List ι} (h : Meets next cond start (first ++ second)) :
    Meets next cond start first := by
  intro before l after s hsplit hrun
  refine h before l (after ++ second) s ?_ hrun
  rw [hsplit, List.append_assoc, List.cons_append]

/-- A run of no steps meets every condition. -/
theorem meets_nil : Meets next cond start [] := by
  intro before l after s hsplit
  simp at hsplit

/-- A run meets what its first step and the run behind it meet. -/
theorem meets_cons {l : ι} {ls : List ι} (hfirst : cond start l)
    (hrest : ∀ s, next start l = some s → Meets next cond s ls) :
    Meets next cond start (l :: ls) := by
  intro before l' after s hsplit hrun
  cases before with
  | nil =>
      obtain ⟨rfl, -⟩ := List.cons.inj hsplit
      cases hrun
      exact hfirst
  | cons first before =>
      obtain ⟨rfl, hls⟩ := List.cons.inj hsplit
      obtain ⟨middle, hnext, hbefore⟩ := Option.bind_eq_some_iff.mp hrun
      exact hrest middle hnext before l' after s hls hbefore

/-- The steps lead from a state to another, each taken in a state with `cond`. -/
structure Leads (next : σ → ι → Option σ) (cond : σ → ι → Prop) (start : σ) (ls : List ι)
    (finish : σ) : Prop where
  run_eq : run next ls start = some finish
  meets : Meets next cond start ls

/-- No steps lead to where they start. -/
theorem leads_nil : Leads next cond start [] start := ⟨rfl, meets_nil⟩

/-- A step that leads on is put before the others. -/
theorem leads_cons {l : ι} {ls : List ι} {middle finish : σ} (hnext : next start l = some middle)
    (hfirst : cond start l) (hrest : Leads next cond middle ls finish) :
    Leads next cond start (l :: ls) finish := by
  constructor
  · rw [run, hnext]
    exact hrest.run_eq
  · refine meets_cons hfirst fun s hs => ?_
    obtain rfl := Option.some.inj (hnext.symm.trans hs)
    exact hrest.meets

/-- Steps that lead to where others start lead, with them, to where those lead. -/
theorem Leads.append {first second : List ι} {middle finish : σ}
    (hfirst : Leads next cond start first middle) (hsecond : Leads next cond middle second finish) :
    Leads next cond start (first ++ second) finish := by
  induction first generalizing start with
  | nil =>
      obtain rfl := Option.some.inj hfirst.run_eq
      exact hsecond
  | cons l first ih =>
      obtain ⟨state, hnext, hrun⟩ := Option.bind_eq_some_iff.mp hfirst.run_eq
      refine leads_cons hnext (hfirst.meets [] l first start rfl rfl) (ih ⟨hrun, ?_⟩)
      intro before l' after s hsplit hbefore
      refine hfirst.meets (l :: before) l' after s (by rw [hsplit]; rfl) ?_
      rw [run, hnext]
      exact hbefore

/-- A relation between history and state that holds at the start, and that every enabled step
taken in a state with `cond` extends, holds after every run whose steps meet `cond`. -/
theorem run_induction_of_meets {P : List ι → σ → Prop} (hstart : P [] start)
    (hstep : ∀ ls s l s', P ls s → cond s l → next s l = some s' → P (ls ++ [l]) s')
    {ls : List ι} {s : σ} (h : run next ls start = some s) (hmeets : Meets next cond start ls) :
    P ls s := by
  induction ls using List.reverseRecOn generalizing s with
  | nil =>
      cases h
      exact hstart
  | append_singleton ls l ih =>
      obtain ⟨middle, hrun, hlast⟩ := run_concat_eq_some_iff.mp h
      exact hstep ls middle l s (ih hrun hmeets.of_append) (hmeets ls l [] middle rfl hrun) hlast

end Dvws.Transition
