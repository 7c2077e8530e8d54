import Mathlib.Algebra.BigOperators.Group.Finset.Basic

/-!
# Tallies over the parts of a state

A step of one part of a state changes one summand of a sum over all parts.
-/

namespace Dvws.Transition

variable {κ : Type*} [DecidableEq κ]

/-- Two sums that differ in one summand differ by what that summand does. -/
theorem sum_exchange {parts : Finset κ} {part : κ} (hmem : part ∈ parts) {f g : κ → Nat}
    (h : ∀ other, other ≠ part → g other = f other) :
    ∑ i ∈ parts, g i + f part = ∑ i ∈ parts, f i + g part := by
  have hrest : ∑ i ∈ parts.erase part, g i = ∑ i ∈ parts.erase part, f i :=
    Finset.sum_congr rfl fun i hi => h i (Finset.ne_of_mem_erase hi)
  rw [← Finset.add_sum_erase parts g hmem, ← Finset.add_sum_erase parts f hmem, hrest]
  omega

end Dvws.Transition
