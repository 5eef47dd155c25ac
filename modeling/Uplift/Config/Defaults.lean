import Uplift.Config.Merge
import Uplift.Fields

/-!
# The packaged configuration

The configuration that is in force unless it is overridden: documents are marked after migration,
documents of newer products are accepted, and both families use the standard field names.
-/

set_option autoImplicit false

namespace Uplift.Config

def object (fields : List (String × Value)) : Value :=
  .object (fields.map fun field => (.text field.1, field.2))

def standardFamily : Value :=
  let fields := FieldNames.standard
  object [("fields", object
    [("content", .text fields.content), ("migrations", .text fields.migrations),
      ("version", .text fields.version), ("id", .text fields.id), ("name", .text fields.name)])]

def defaults : Value :=
  object
    [("engine", object [("stamp_versions", .bool true), ("reject_newer_versions", .bool false)]),
      ("families", object [("chain", standardFamily), ("service", standardFamily)])]

/-- The packaged configuration with overrides on top, if they say anything. -/
def resolve (overrides : Value) : Except MergeConflict Value :=
  if overrides.saysNothing then .ok defaults else merge defaults overrides

end Uplift.Config
