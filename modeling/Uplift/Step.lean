import Uplift.Fields
import Uplift.Journal
import Uplift.Versions.Marker

/-!
# Steps

A step takes a document from one version of its format to the next. It declares the version that a
document has afterwards; whether a declared version is acceptable is for the registry to say.
-/

set_option autoImplicit false

namespace Uplift

/-- A form in which documents are held while they are migrated. Each document stands for a tree,
and a marker can be written into it. -/
class Representation (δ : Type) where
  tree : δ → Value
  /-- The document with a text under its migrations field, as `Marker.put` writes it. -/
  mark : FieldNames → String → δ → δ

instance : Representation Value where
  tree document := document
  mark := Marker.put

/-- A step on documents of one representation. -/
structure Step (δ : Type) where
  /-- The version as it is declared; a step may declare none, or something that is no version. -/
  version : Option Value
  description : String
  apply : Context → δ → Logged Fault δ

namespace Step

variable {δ : Type}

/-- The version of a step, if what it declares is a positive integer. -/
def number? (step : Step δ) : Option Int :=
  match step.version with
  | some (.int version) => if 0 < version then some version else none
  | _ => none

end Step

end Uplift
