import Mathlib.Data.List.Basic

/-!
# The steps of a run with what came before them

A step whose effect depends on the past is judged together with the steps before it. `withPast`
pairs each step of a run with them.
-/

namespace Dvws.Transition

variable {ι : Type*}

/-- Each step with the steps before it, behind a past. -/
def pastsFrom (past : List ι) : List ι → List (List ι × ι)
  | [] => []
  | l :: ls => (past, l) :: pastsFrom (past ++ [l]) ls

/-- Each step of a run with the steps before it. -/
def withPast (ls : List ι) : List (List ι × ι) := pastsFrom [] ls

/-- The last step comes with all others. -/
theorem pastsFrom_concat (past ls : List ι) (l : ι) :
    pastsFrom past (ls ++ [l]) = pastsFrom past ls ++ [(past ++ ls, l)] := by
  induction ls generalizing past with
  | nil => simp [pastsFrom]
  | cons first ls ih =>
      rw [List.cons_append, pastsFrom, pastsFrom, ih, List.append_assoc, List.singleton_append,
        List.cons_append]

@[simp] theorem withPast_nil : withPast ([] : List ι) = [] := rfl

/-- A run that is one step longer has that step, with the run before it. -/
theorem withPast_concat (ls : List ι) (l : ι) :
    withPast (ls ++ [l]) = withPast ls ++ [(ls, l)] :=
  pastsFrom_concat [] ls l


end Dvws.Transition
