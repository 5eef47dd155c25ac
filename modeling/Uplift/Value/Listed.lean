import Uplift.Fault
import Uplift.Value.Shown

/-!
# Values as lists and as entries

What a value has one after the other: an array its items, a text its characters, an object its keys.
A value that lists pairs stands for the entries that these are, as an object stands for its own.
-/

set_option autoImplicit false

namespace Uplift.Value

/-- What a value has one after the other. A scalar that is no text has nothing of the kind. -/
def listed : Value → Except Fault (List Value)
  | array items => .ok items
  | object entries => .ok (entries.map fun entry => .scalar entry.1)
  | text value => .ok (value.toList.map fun char => text (String.singleton char))
  | other => .error (.noItems other.qualifiedTypeName)

/-- A value as a key; a container cannot be one. -/
def asKey : Value → Except Fault Scalar
  | scalar key => .ok key
  | container => .error (.unusableKey container.typeName)

/-- The entry that a value stands for: it must have a key and a value one after the other, and
nothing else. Messages give its place among others. -/
def asEntry (place : Nat) (pair : Value) : Except Fault (Scalar × Value) :=
  match pair.listed with
  | .ok [key, value] => key.asKey.map fun key => (key, value)
  | .ok items =>
      .error (.other "ValueError" ("dictionary update sequence element #" ++ toString place
        ++ " has length " ++ toString items.length ++ "; 2 is required"))
  | .error _ =>
      .error (.other "TypeError" ("cannot convert dictionary update sequence element #"
        ++ toString place ++ " to a sequence"))

def asEntries (value : Value) : Except Fault (Entries Value) :=
  if value.saysNothing then .ok []
  else
    match value with
    | object entries => .ok entries
    | other => do
        let pairs ← other.listed
        let entries ← pairs.zipIdx.mapM fun (pair, place) => asEntry place pair
        return Entries.ofPairs entries

end Uplift.Value
