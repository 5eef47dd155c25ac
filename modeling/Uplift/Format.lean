import Uplift.Graph
import Uplift.Json
import Uplift.Yaml.Node.Reading

/-!
# Formats of texts

The two formats in which documents and configurations are written. The suffix of a file tells its
format; case does not count there.
-/

set_option autoImplicit false

namespace Uplift

/-- A format of texts. -/
inductive Format where
  | yaml
  | json
deriving DecidableEq

/-- Why a text is not of a format. -/
inductive FormatError where
  | yaml (error : Yaml.Error)
  | json (error : Json.Error)

namespace FormatError

/-- The fault that a value in the text is, if it is not the form of the text that is at fault. -/
def fault? : FormatError → Option Fault
  | yaml (.fault fault) => some fault
  | json (.fault fault) => some fault
  | _ => none

end FormatError

namespace Format

def ofName? (name : String) : Option Format :=
  if name = "yaml" then some yaml else if name = "json" then some json else none

def ofSuffix? (suffix : String) : Option Format :=
  let lower := Text.lowercase suffix
  if lower = ".yaml" ∨ lower = ".yml" then some yaml
  else if lower = ".json" then some json
  else none

/-- Reads a text. Parts of a YAML text may be shared; a JSON text is a tree. `source` numbers the
texts whose values may meet. -/
def read (format : Format) (source : Nat) (text : String) : Except FormatError Graph :=
  match format with
  | yaml => (Yaml.read source text).mapError FormatError.yaml
  | json => ((Json.read text).map Graph.ofTree).mapError FormatError.json

end Format

end Uplift
