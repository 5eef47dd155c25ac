import Uplift.Rewrite.Treatment

/-!
# The service family

The steps of documents that describe services. Version 101 moves a flat document's fields into its
content; version 102 gives a name to operations that have none.
-/

set_option autoImplicit false

namespace Uplift.Service

def nameParts : List String := ["id", "method", "path"]

/-- The name made for an operation: the parts that are not blank, joined by hyphens. -/
def operationName (operation : Entries Outline) : Except Fault String := do
  let parts ← nameParts.mapM fun field => Outline.textAt field operation
  return "-".intercalate (parts.filter fun part => !Text.isBlank part)

def nameOf : Value → Except Fault String
  | .object entries => operationName (Entries.mapValues Value.outline entries)
  | other => .error (.noEntries other.qualifiedTypeName)

/-- An operation whose name has no text gets one, if any of the parts has. -/
def nameOperation : FallibleRule := fun stepId operation => do
  let given ← Outline.textAt "name" operation
  if !Text.isBlank given then return .none
  let name ← operationName operation
  if name.isEmpty then return .none
  let operationId ← Outline.textAt "id" operation
  return {
    edits := [.set "name" (.text name)]
    notes :=
      [.event ⟨stepId, .debug, "operation name generated",
        [("operation_id", .text operationId), ("name", .text name)]⟩] }

def label : String := "service"

def v101 : Blueprint where
  label := label
  version := 101
  description := "move every field except id and name into content"
  treatments := [.promote]

def v102 : Blueprint where
  label := label
  version := 102
  description := "synthesize missing operation names from id, method and path"
  treatments := [.eachOperation nameOperation]

def blueprints : List Blueprint := [v101, v102]

end Uplift.Service
