import Uplift.Entries
import Uplift.Fault

/-!
# Values in outline

What one sees of a value who does not look into containers, and the questions that can be put to it:
its text, whether it is blank, whether it is empty. The text of an integer of too many digits cannot
be made, and then each of these questions fails.
-/

set_option autoImplicit false

namespace Uplift

namespace Scalar

/-- The text of a scalar as a field, if it can be made. -/
def asText (scalar : Scalar) : Except Fault String :=
  if scalar.isWritable then .ok scalar.wording else .error .integerTooLong

end Scalar

/-- What is seen of a value. -/
inductive Outline where
  | scalar (value : Scalar)
  | array (isEmpty : Bool)
  | object (isEmpty : Bool)
deriving DecidableEq

namespace Outline

/-- The text of a scalar; that of a container is empty. -/
def asText : Outline → Except Fault String
  | scalar value => value.asText
  | _ => .ok ""

/-- Whether this is a scalar whose text has nothing but white space. -/
def isBlank : Outline → Except Fault Bool
  | scalar value => value.asText.map Text.isBlank
  | _ => .ok false

/-- Whether this is a container without content, or a blank scalar. -/
def isEmpty : Outline → Except Fault Bool
  | scalar value => value.asText.map Text.isBlank
  | array isEmpty => .ok isEmpty
  | object isEmpty => .ok isEmpty

/-- The text of a field in an object that is seen in outline. A field that is absent, or that holds
a container, has the empty text. -/
def textAt (field : String) (entries : Entries Outline) : Except Fault String :=
  match entries.lookup (.text field) with
  | none => .ok ""
  | some found => found.asText

end Outline

namespace Value

def outline : Value → Outline
  | scalar value => .scalar value
  | array items => .array items.isEmpty
  | object entries => .object entries.isEmpty

def asText (value : Value) : Except Fault String := value.outline.asText

def isBlank (value : Value) : Except Fault Bool := value.outline.isBlank

def isEmpty (value : Value) : Except Fault Bool := value.outline.isEmpty

end Value

end Uplift
