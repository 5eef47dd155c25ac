import Uplift.Plan
import Uplift.Value.Listed
import Uplift.Value.Order
import Uplift.Versions.Marker

/-!
# Unchecked versions

Versions as they are handed over, before it is known that they are integers, or that what should
list them is an array. Where all of them are integers, the answers are those of `Listing`, `Marker`,
`Declaration` and `Plan`. Other scalars are kept as they are and told apart as keys; what has no
order, or cannot be a key, is a fault. `format_ints`, `write_ints` and `checked?_explicit_ints` say
the first for arrays of integers.
-/

set_option autoImplicit false

namespace Uplift.Unchecked

/-- The integer that a value is; a truth value is none. -/
def integer? : Value → Option Int
  | .int value => some value
  | _ => none

/-- The integers that values are, if all of them are integers. -/
def integers? (values : List Value) : Option (List Int) :=
  values.mapM integer?

theorem integers?_map_int (versions : List Int) :
    integers? (versions.map Value.int) = some versions := by
  induction versions with
  | nil => rfl
  | cons version rest ih =>
      simp only [integers?] at ih
      simp [integers?, integer?, ih]

/-- Adds a value to distinct scalars, unless it is the same key as one of them. -/
def addDistinct (kept : List Scalar) (value : Value) : Except Fault (List Scalar) :=
  value.asKey.map fun key => if kept.any key.sameKey then kept else kept ++ [key]

/-- The text of versions, unless one of them has more digits than are written. -/
def format (versions : Value) : Except Fault String := do
  let versions ← versions.listed
  match integers? versions with
  | some versions => Listing.written versions
  | none =>
      let sorted ← Scalar.sorted (← versions.foldlM addDistinct [])
      if sorted.all Scalar.isWritable then
        return "[" ++ ", ".intercalate (sorted.map Scalar.shown) ++ "]"
      else .error .integerTooLong

/-- An array of integers is written as the list of versions that it is. -/
theorem format_ints (versions : List Int) :
    format (.array (versions.map Value.int)) = Listing.written versions := by
  simp only [format, Value.listed, bind, Except.bind, integers?_map_int]

/-- Writes the marker of the given versions into a document, which must be an object. -/
def write (fields : FieldNames) (versions document : Value) : Except Fault Value :=
  match document with
  | .object _ => (format versions).map fun text => Marker.put fields text document
  | other => .error (.noEntries other.qualifiedTypeName)

/-- The marker of integers is that of the list of versions that they are. -/
theorem write_ints {versions : List Int} (writable : Listing.isWritable versions = true)
    (fields : FieldNames) (entries : Entries Value) :
    write fields (.array (versions.map Value.int)) (.object entries) =
      .ok (Marker.write fields versions (.object entries)) := by
  simp only [write, format_ints, Listing.written, writable, if_true]
  rfl

/-- The versions that a document declares to have. -/
inductive Declaration where
  | explicit (versions : List Value)
  /-- All versions from one up to the bound; a bound that says nothing is zero. -/
  | legacy (bound : Value)

namespace Declaration

def effective (bound : Value) : Value :=
  if bound.saysNothing then .int 0 else bound

/-- The declaration, if all its versions are integers. -/
def checked? : Declaration → Option Uplift.Declaration
  | explicit versions => (integers? versions).map .explicit
  | legacy bound => (integer? (effective bound)).map .legacy

/-- A declaration that lists integers is the checked one of these. -/
theorem checked?_explicit_ints (versions : List Int) :
    (explicit (versions.map Value.int)).checked? = some (.explicit versions) := by
  simp [checked?, integers?_map_int]

/-- Whether a value is a declared version. Only integers are versions; a truth value counts as one
of them. -/
def contains (version : Value) (declaration : Declaration) : Except Fault Bool :=
  match declaration.checked?, version with
  | some checked, _ => .ok (checked.containsValue version)
  | none, .scalar scalar =>
      if scalar.asInteger?.isNone then .ok false
      else
        match declaration with
        | explicit versions => .ok (versions.any version.same)
        | legacy bound => do
            if ← Value.compares .atMost (.int 1) version then
              Value.compares .atMost version (effective bound)
            else return false
  | none, _ => .ok false

/-- The largest declared version, or zero. -/
def maxVersion (declaration : Declaration) : Except Fault Value :=
  match declaration.checked?, declaration with
  | some checked, _ => .ok (.int checked.maxVersion)
  | none, explicit [] => .ok (.int 0)
  | none, explicit (first :: rest) =>
      rest.foldlM (fun largest version => do
        if ← Value.compares .greater version largest then return version else return largest) first
  | none, legacy bound => .ok (effective bound)

/-- The registered versions that are declared, in ascending order. -/
def restrictedTo (registered : Value) (declaration : Declaration) :
    Except Fault (List Value) := do
  let registered ← registered.listed
  match declaration.checked?, integers? registered with
  | some checked, some registered => return (checked.restrictedTo registered).map Value.int
  | _, _ =>
      let distinct ← registered.foldlM addDistinct []
      let ascending ← Scalar.sorted (distinct.filter fun version => version.asInteger?.isSome)
      let declared ← ascending.filterM fun version => declaration.contains (.scalar version)
      return declared.map Value.scalar

/-- The declared versions above a bound, in ascending order. -/
def above (latest : Value) (declaration : Declaration) : Except Fault (List Value) :=
  match declaration.checked?, integer? latest, declaration with
  | some checked, some latest, _ => .ok ((checked.above latest).map Value.int)
  | _, _, explicit versions => do
      let kept ← versions.foldlM (fun kept version => do
        if ← Value.compares .greater version latest then addDistinct kept version
        else return kept) []
      return (← Scalar.sorted kept).map Value.scalar
  | _, _, legacy bound => do
      if ← Value.compares .greater (effective bound) latest then return [effective bound]
      else return []

variable {δ : Type}

/-- The registered versions that a document lacks, in ascending order. -/
def outstanding (registry : Registry δ) (declaration : Declaration) :
    Except Fault (List Int) :=
  match declaration.checked? with
  | some checked => .ok ((Plan.outstanding registry checked).map (·.1))
  | none =>
      registry.versions.filterM fun version => do
        let declared ← declaration.contains (.int version)
        return !declared

/-- The listed versions above all registered ones, in ascending order. -/
def unknown (registry : Registry δ) (declaration : Declaration) : Except Fault (List Value) :=
  match declaration.checked?, declaration with
  | some checked, _ => .ok ((Plan.unknown registry checked).map Value.int)
  | none, legacy _ => .ok []
  | none, explicit _ => declaration.above (.int (registry.latest?.getD 0))

end Declaration

end Uplift.Unchecked
