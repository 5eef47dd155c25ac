import Uplift.Rewrite.Promotion
import Uplift.Rewrite.Rule
import Uplift.Step

/-!
# Treatments of documents

What the steps of the families do, as data: a step is a list of treatments, and a treatment says
which objects of a document a rule is applied to. How a treatment is carried out depends on how the
document is held; this module holds what is common to all of them.
-/

set_option autoImplicit false

namespace Uplift

/-- One treatment of a document. -/
inductive Treatment where
  /-- Moves all fields but the identifier and the name into the content. -/
  | promote
  /-- Applies a rule to every object at any depth, from the root down. -/
  | everyObject (rule : FallibleRule)
  | eachElement (rule : FallibleRule)
  /-- Visits the elements of the content and, from each of them, its children. The rule of an
  element's type is applied to the element's properties. -/
  | elementProperties (ruleOf : String → Option FallibleRule)
  /-- Applies a rule to each object among the operations of the content, which must be an array if
  there are any. -/
  | eachOperation (rule : FallibleRule)

/-- A step as data: its version, and the treatments that make it up. -/
structure Blueprint where
  label : String
  version : Int
  description : String
  treatments : List Treatment

namespace Blueprint

def stepId (blueprint : Blueprint) : String :=
  blueprint.label ++ ".v" ++ toString blueprint.version

/-- The step on documents of a representation in which single treatments can be carried out. -/
def toStep {δ : Type} (carryOut : String → Treatment → δ → Logged Fault δ)
    (blueprint : Blueprint) : Step δ where
  version := some (.int blueprint.version)
  description := blueprint.description
  apply _ document :=
    blueprint.treatments.foldlM (fun current treatment =>
      carryOut blueprint.stepId treatment current) document

end Blueprint

namespace Treatment

def elementsField : String := "elements"

def operationsField : String := "operations"

def childrenField : String := "children"

def propertiesField : String := "properties"

/-- What is noted of an element that is visited. -/
structure Visit where
  elementId : String
  elementType : String

namespace Visit

/-- Reads the type of an element, and then its identifier. -/
def read (element : Entries Outline) : Except Fault Visit := do
  let elementType ← Outline.textAt "type" element
  let elementId ← Outline.textAt "id" element
  return ⟨elementId, elementType⟩

def note (stepId : String) (visit : Visit) : Note :=
  .event ⟨stepId, .debug, "migrating element",
    [("element_id", .text visit.elementId), ("element_type", .text visit.elementType)]⟩

end Visit

/-- The place of the operations, as messages give it. -/
def operationsPlace (fields : FieldNames) : String :=
  fields.content ++ "." ++ operationsField

end Treatment

end Uplift
