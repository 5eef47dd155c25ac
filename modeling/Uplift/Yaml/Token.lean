import Uplift.Yaml.Error

/-!
# Tokens of YAML

The tokens into which a YAML text is cut. Indentation appears as tokens that open and close block
collections.
-/

set_option autoImplicit false

namespace Uplift.Yaml

/-- A tag as it is written: a handle, if it has one, and a suffix. -/
structure WrittenTag where
  handle : Option String
  suffix : String
deriving DecidableEq

/-- A token. -/
inductive Token where
  | versionDirective (major : Nat)
  | tagDirective (handle expansion : String)
  | otherDirective
  | documentStart
  | documentEnd
  | blockSequenceStart
  | blockMappingStart
  | blockEnd
  | flowSequenceStart
  | flowSequenceEnd
  | flowMappingStart
  | flowMappingEnd
  | blockEntry
  | flowEntry
  | key
  | value
  | alias (name : String)
  | anchor (name : String)
  | tag (written : WrittenTag)
  /-- A scalar; `plain` tells one without quotes, whose form decides on its type. -/
  | scalar (plain : Bool) (text : String)
deriving DecidableEq

/-- The tokens that can be cut from a text, and the error that is in the way of further ones. -/
structure Tokens where
  taken : List Token
  failure : Option Error

end Uplift.Yaml
