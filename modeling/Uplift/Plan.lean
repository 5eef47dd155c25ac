import Uplift.Registry
import Uplift.Versions.Satisfied

/-!
# Migration plans

What remains to be done for a document: the registered steps whose versions it does not declare, in
ascending order. Versions that it declares above all registered ones come from a newer product.
-/

set_option autoImplicit false

namespace Uplift.Plan

variable {δ : Type}

/-- The steps that a document lacks, with their versions, in ascending order. -/
def outstanding (registry : Registry δ) (declaration : Declaration) : List (Int × Step δ) :=
  registry.ordered.filter fun entry => !declaration.contains entry.1

/-- The listed versions above all registered ones, in ascending order. A legacy number is only a
bound and never names an unknown version. -/
def unknown (registry : Registry δ) (declaration : Declaration) : List Int :=
  match declaration with
  | .legacy _ => []
  | .explicit _ => declaration.above (registry.latest?.getD 0)

end Uplift.Plan
