/-!
# Field names of a family

Each family of documents names the fields in which it keeps its content, its version markers and
its identity.
-/

set_option autoImplicit false

namespace Uplift

/-- The names of the fields that migrations depend on. -/
structure FieldNames where
  content : String
  migrations : String
  version : String
  id : String
  name : String
deriving DecidableEq

namespace FieldNames

/-- The names in use unless a family is configured otherwise. -/
def standard : FieldNames := ⟨"content", "migrations", "version", "id", "name"⟩

end FieldNames

end Uplift
