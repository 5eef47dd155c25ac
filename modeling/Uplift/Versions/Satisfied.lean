import Uplift.Value
import Uplift.Versions.Ascending

/-!
# Satisfied versions

The versions that a document already has. They are declared as a list, which may have gaps, or as a
single number that stands for every version from one up to it.
-/

set_option autoImplicit false

namespace Uplift

/-- The versions that a document declares to have. -/
inductive Declaration where
  /-- Exactly the listed versions, in the order of the document. -/
  | explicit (versions : List Int)
  | legacy (bound : Int)
deriving DecidableEq

namespace Declaration

def formName : Declaration → String
  | explicit _ => "explicit"
  | legacy _ => "legacy"

def contains (version : Int) : Declaration → Bool
  | explicit versions => versions.contains version
  | legacy bound => 1 ≤ version && version ≤ bound

/-- The largest declared version, or zero. -/
def maxVersion : Declaration → Int
  | explicit [] => 0
  | explicit (first :: rest) => rest.foldl max first
  | legacy bound => bound

/-- The registered versions that are declared, in ascending order. -/
def restrictedTo (registered : List Int) (declaration : Declaration) : List Int :=
  Ascending.ofList (registered.filter declaration.contains)

/-- The declared versions above a bound, in ascending order. Of the versions below a legacy bound
only the bound itself is named. -/
def above (latest : Int) : Declaration → List Int
  | explicit versions => Ascending.ofList (versions.filter (latest < ·))
  | legacy bound => if latest < bound then [bound] else []

/-- Whether a value is a declared version. Only integers are versions; a truth value counts as one
of them. -/
def containsValue (value : Value) (declaration : Declaration) : Bool :=
  match value with
  | .scalar scalar => scalar.asInteger?.any declaration.contains
  | _ => false

end Declaration

/-- A declaration together with the name of the rule that found it. -/
structure Satisfied where
  declaration : Declaration
  source : String
deriving DecidableEq

end Uplift
