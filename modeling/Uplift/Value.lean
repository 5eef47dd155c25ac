import Uplift.Entries

/-!
# Document trees

A document is a tree of scalars, arrays and objects. An object keeps its entries in order, and that
order is part of the document.
-/

set_option autoImplicit false

namespace Uplift

/-- A node of a document tree. -/
inductive Value where
  | scalar (value : Scalar)
  | array (items : List Value)
  | object (entries : List (Scalar × Value))
deriving Inhabited

/-- The three kinds of nodes. -/
inductive Kind where
  | scalar
  | array
  | object
deriving DecidableEq

namespace Kind

def name : Kind → String
  | scalar => "scalar"
  | array => "array"
  | object => "object"

end Kind

namespace Value

@[match_pattern] abbrev null : Value := .scalar .null
@[match_pattern] abbrev bool (value : Bool) : Value := .scalar (.bool value)
@[match_pattern] abbrev int (value : Int) : Value := .scalar (.int value)
@[match_pattern] abbrev text (value : String) : Value := .scalar (.text value)

def kind : Value → Kind
  | scalar _ => .scalar
  | array _ => .array
  | object _ => .object

def isObject : Value → Bool
  | object _ => true
  | _ => false

def isArray : Value → Bool
  | array _ => true
  | _ => false

/-- The entries of an object; other nodes have none. -/
def entries : Value → Entries Value
  | object entries => entries
  | _ => []

/-- The nodes directly below: the values of an object, the items of an array. -/
def children : Value → List Value
  | scalar _ => []
  | array items => items
  | object entries => entries.map (·.2)

def get? (name : String) : Value → Option Value
  | object entries => Entries.lookup (.text name) entries
  | _ => none

/-- Null, false, zero, and whatever is empty: values that say as little as none at all. -/
def saysNothing : Value → Bool
  | scalar .null => true
  | scalar (.bool value) => !value
  | scalar (.int value) => value == 0
  | scalar (.float value) => value.isFinite && value.significand == 0
  | scalar (.text value) => value.isEmpty
  | scalar (.date _) => false
  | scalar (.moment _) => false
  | scalar (.bytes value) => value.isEmpty
  | array items => items.isEmpty
  | object entries => entries.isEmpty

mutual

def scalars : Value → List Scalar
  | scalar value => [value]
  | array items => scalarsOfItems items
  | object entries => scalarsOfEntries entries

def scalarsOfItems : List Value → List Scalar
  | [] => []
  | item :: rest => scalars item ++ scalarsOfItems rest

def scalarsOfEntries : List (Scalar × Value) → List Scalar
  | [] => []
  | (key, value) :: rest => key :: scalars value ++ scalarsOfEntries rest

end

end Value

end Uplift
