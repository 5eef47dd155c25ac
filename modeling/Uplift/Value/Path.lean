import Uplift.Fault
import Uplift.Value.Shown

/-!
# Places in a document

Following keys downwards from a node, and requiring an object where one must stand.
-/

set_option autoImplicit false

namespace Uplift.Value

/-- Follows keys downwards. Below a node that is no object there is nothing, and asking an object
for a key that no object can have is a fault. -/
def path? : List Value → Value → Except Fault (Option Value)
  | [], node => .ok (some node)
  | key :: rest, object entries =>
      match key with
      | scalar key =>
          match Entries.lookup key entries with
          | none => .ok none
          | some below => path? rest below
      | container => .error (.unusableKey container.typeName)
  | _ :: _, _ => .ok none

/-- The entries of an object; anything else at that place is a fault. -/
def requireObject (place : String) (node : Value) : Except Fault (Entries Value) :=
  match node with
  | object entries => .ok entries
  | other => .error (.expectedObject place other.kind)

/-- The place of an item that is counted from the front, or from the end if the number is
negative. -/
def placeOf (index : Int) (items : List Value) : Nat :=
  if index < 0 then items.length - index.natAbs else index.toNat

/-- Sets the value below some keys, or takes the last key away if there is no value to set. Where
the way is missing nothing changes. -/
def amendAt : List Scalar → Option Value → Value → Value
  | [], some value, _ => value
  | [], none, node => node
  | [key], none, object entries => object (Entries.erase key entries)
  | [key], some value, object entries => object (Entries.put key value entries)
  | [.int index], none, array items => array (items.eraseIdx (placeOf index items))
  | key :: rest, change, object entries =>
      match Entries.lookup key entries with
      | none => object entries
      | some below => object (Entries.put key (amendAt rest change below) entries)
  | .int index :: rest, change, array items =>
      match items[placeOf index items]? with
      | none => array items
      | some below => array (items.set (placeOf index items) (amendAt rest change below))
  | _, _, node => node

end Uplift.Value
