import Uplift.Fault

/-!
# Unreadable YAML

Why a text is not a YAML document that this library reads.
-/

set_option autoImplicit false

namespace Uplift.Yaml

/-- Why a YAML text cannot be read. -/
inductive Error where
  | unprintable (char : Char)
  /-- No token can start here, or one does not end as it should. -/
  | badToken (line column : Nat)
  | badStructure
  | secondDocument
  | unknownAlias (name : String)
  | duplicateAnchor (name : String)
  | unknownTag (tag : String)
  | misplacedTag (tag : String)
  | badKey
  | badMerge
  | fault (fault : Fault)

end Uplift.Yaml
