import Uplift.Proofs.Value.Reading
import Uplift.Rewrite.Tree

/-!
# Properties of an element

The rule of an element's type amends the properties of the element, if they are an object, and
nothing else of it.
-/

set_option autoImplicit false

namespace Uplift

theorem Amendment.apply_of_no_edits {amendment : Amendment} (idle : amendment.edits = [])
    (entries : Entries Value) : amendment.apply entries = entries := by
  rw [apply, idle]
  rfl

namespace Rewrite

/-- The properties of an element, if they are an object. -/
def properties? (element : Entries Value) : Option (Entries Value) :=
  match element.lookup (.text Treatment.propertiesField) with
  | some (.object properties) => some properties
  | _ => none

def elementType (element : Entries Value) : String :=
  element.wordingAt "type"

/-- Whether the texts that are noted of an element can be made. -/
def isVisitable (element : Entries Value) : Bool :=
  element.legibleAt "type" && element.legibleAt "id"

/-- What is noted of an element. -/
def visitOf (element : Entries Value) : Treatment.Visit :=
  ⟨element.wordingAt "id", elementType element⟩

/-- What the rule of a type asks for on properties; a type without a rule asks for nothing. -/
def amendmentFor (ruleOf : String → Option FallibleRule) (stepId elementType : String)
    (properties : Entries Value) : Except Fault Amendment :=
  match ruleOf elementType with
  | some rule => rule stepId (outlines properties)
  | none => .ok .none

theorem lookup_outlines (key : Scalar) (entries : Entries Value) :
    (outlines entries).lookup key = (entries.lookup key).map Value.outline :=
  Entries.lookup_mapValues ..

theorem contains_outlines (key : Scalar) (entries : Entries Value) :
    (outlines entries).contains key = entries.contains key :=
  Entries.contains_mapValues ..

theorem read_outlines (element : Entries Value) :
    Treatment.Visit.read (outlines element) =
      answerIf (isVisitable element) (visitOf element) := by
  unfold Treatment.Visit.read isVisitable visitOf elementType outlines
  rw [Outline.textAt_mapValues, Outline.textAt_mapValues]
  cases element.legibleAt "type" <;> cases element.legibleAt "id" <;> rfl

theorem isVisitable_of_writable {element : Entries Value} (writable : element.Writable) :
    isVisitable element = true := by
  rw [isVisitable, writable.legibleAt, writable.legibleAt]
  rfl

variable {ruleOf : String → Option FallibleRule} {stepId type : String}
  {element properties : Entries Value} {amendment : Amendment}

theorem properties?_eq_some_iff :
    properties? element = some properties ↔
      element.lookup (.text Treatment.propertiesField) = some (.object properties) := by
  unfold properties?
  split
  · rename_i found located
    rw [located]
    simp
  · rename_i other
    constructor
    · intro found
      cases found
    · intro located
      exact absurd located (other properties)

theorem properties?_eq_none_iff :
    properties? element = none ↔
      ¬ ∃ properties, element.lookup (.text Treatment.propertiesField) =
        some (.object properties) := by
  simp only [Option.eq_none_iff_forall_ne_some, ne_eq, properties?_eq_some_iff, not_exists]

theorem propertiesAmendment_of_properties (found : properties? element = some properties) :
    propertiesAmendment ruleOf type stepId element = amendmentFor ruleOf stepId type properties := by
  unfold propertiesAmendment amendmentFor
  rw [properties?_eq_some_iff.mp found]
  cases ruleOf type <;> rfl

theorem propertiesAmendment_of_none (absent : properties? element = none) :
    propertiesAmendment ruleOf type stepId element = .ok .none := by
  unfold propertiesAmendment
  split
  · rename_i located
    rw [properties?_eq_some_iff.mpr located] at absent
    cases absent
  · rfl

theorem propertiesAmendment_of_no_rule (absent : ruleOf type = none) :
    propertiesAmendment ruleOf type stepId element = .ok .none := by
  cases found : properties? element with
  | none => exact propertiesAmendment_of_none found
  | some properties =>
      rw [propertiesAmendment_of_properties found, amendmentFor, absent]

/-- What is asked for depends on the type and the properties alone. -/
theorem propertiesAmendment_congr {other : Entries Value}
    (sameProperties : properties? other = properties? element) :
    propertiesAmendment ruleOf type stepId other =
      propertiesAmendment ruleOf type stepId element := by
  cases found : properties? element with
  | none =>
      rw [propertiesAmendment_of_none found,
        propertiesAmendment_of_none (sameProperties.trans found)]
  | some properties =>
      rw [propertiesAmendment_of_properties found,
        propertiesAmendment_of_properties (sameProperties.trans found)]

theorem amendProperties_of_properties (found : properties? element = some properties) :
    amendProperties amendment element =
      element.put (.text Treatment.propertiesField) (.object (amendment.apply properties)) := by
  unfold amendProperties
  rw [properties?_eq_some_iff.mp found]

theorem amendProperties_of_none (absent : properties? element = none) :
    amendProperties amendment element = element := by
  unfold amendProperties
  split
  · rename_i located
    rw [properties?_eq_some_iff.mpr located] at absent
    cases absent
  · rfl

theorem properties?_amendProperties (amendment : Amendment) (element : Entries Value) :
    properties? (amendProperties amendment element) =
      (properties? element).map amendment.apply := by
  cases found : properties? element with
  | none => rw [amendProperties_of_none found, found, Option.map_none]
  | some properties =>
      rw [amendProperties_of_properties found, Option.map_some, properties?_eq_some_iff,
        Entries.lookup_put_same]

theorem lookup_amendProperties {field : String} (other : field ≠ Treatment.propertiesField) :
    (amendProperties amendment element).lookup (.text field) = element.lookup (.text field) := by
  cases found : properties? element with
  | none => rw [amendProperties_of_none found]
  | some properties =>
      rw [amendProperties_of_properties found, Entries.lookup_put_other]
      simpa using other.symm

theorem elementType_eq {other : Entries Value}
    (same : other.lookup (.text "type") = element.lookup (.text "type")) :
    elementType other = elementType element := by
  rw [elementType, elementType, Entries.wordingAt, Entries.wordingAt, same]

theorem isVisitable_eq {other : Entries Value}
    (sameType : other.lookup (.text "type") = element.lookup (.text "type"))
    (sameId : other.lookup (.text "id") = element.lookup (.text "id")) :
    isVisitable other = isVisitable element := by
  simp only [isVisitable, Entries.legibleAt, sameType, sameId]

theorem elementType_amendProperties (amendment : Amendment) (element : Entries Value) :
    elementType (amendProperties amendment element) = elementType element :=
  elementType_eq (lookup_amendProperties (by decide))

theorem isVisitable_amendProperties (amendment : Amendment) (element : Entries Value) :
    isVisitable (amendProperties amendment element) = isVisitable element :=
  isVisitable_eq (lookup_amendProperties (by decide)) (lookup_amendProperties (by decide))

/-- An amendment of the properties leaves all keys, and all other entries, as they are. -/
theorem amendProperties_eq_map (amendment : Amendment) (element : Entries Value) :
    ∃ change : Scalar × Value → Scalar × Value,
      (∀ entry, (change entry).1 = entry.1 ∧
        ((Scalar.text Treatment.propertiesField).sameKey entry.1 = false → change entry = entry)) ∧
        amendProperties amendment element = element.map change := by
  cases found : properties? element with
  | none =>
      refine ⟨id, fun _ => ⟨rfl, fun _ => rfl⟩, ?_⟩
      rw [amendProperties_of_none found, List.map_id]
  | some properties =>
      have present := Entries.contains_of_lookup (properties?_eq_some_iff.mp found)
      refine ⟨_, fun entry => ⟨?_, fun other => ?_⟩, (amendProperties_of_properties found).trans
        (Entries.put_of_contains present _)⟩
      · split <;> rfl
      · rw [if_neg (by rw [other]; exact Bool.false_ne_true)]

end Rewrite

end Uplift
