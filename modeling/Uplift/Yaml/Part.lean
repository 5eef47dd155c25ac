/-!
# Parts of a YAML text

The structure that the tokens of a YAML text show: scalars, sequences and mappings, some of them
with an anchor or a tag, and aliases, which stand for the part with their name. What types tags
give to parts is not decided here.
-/

set_option autoImplicit false

namespace Uplift.Yaml

/-- What may be said of a part in front of its content. -/
structure Properties where
  anchor : Option String
  /-- The name of a type, or an exclamation mark, which says no more than that there is a tag. -/
  tag : Option String
deriving DecidableEq

def Properties.none : Properties := ⟨.none, .none⟩

/-- A part of a text. -/
inductive Part where
  | alias (name : String)
  /-- A scalar; `plain` tells one without quotes. -/
  | scalar (properties : Properties) (plain : Bool) (text : String)
  | sequence (properties : Properties) (items : List Part)
  | mapping (properties : Properties) (entries : List (Part × Part))
deriving Inhabited

namespace Part

def empty : Part := .scalar .none true ""

end Part

end Uplift.Yaml
