import Mathlib.Data.List.Nodup
import Uplift.Proofs.Rewrite.Changes
import Uplift.Proofs.Rewrite.ContentField

/-!
# Elements that are reached in a document

What a walk reaches in a document are the objects directly among the elements of the content, and
those directly among the children of what it reaches. Where no key is given twice this is what it
visits, so that a treatment of properties changes the properties of these objects and nothing else.
-/

set_option autoImplicit false

namespace Uplift

namespace Entries

variable {α : Type} {entries : Entries α} {key : Scalar} {value other : α} {place otherPlace : Nat}

/-- Under distinct keys a key stands in one place. -/
theorem DistinctKeys.place_eq (distinct : entries.DistinctKeys)
    (located : entries[place]? = some (key, value))
    (otherLocated : entries[otherPlace]? = some (key, other)) : place = otherPlace := by
  have keyAt {index : Nat} {stored : α} (found : entries[index]? = some (key, stored)) :
      (entries.map (·.1.key))[index]? = some key.key := by
    rw [List.getElem?_map, found]
    rfl
  obtain ⟨within, _⟩ := List.getElem?_eq_some_iff.mp (keyAt located)
  exact (List.getElem?_inj within distinct).mp ((keyAt located).trans (keyAt otherLocated).symm)

end Entries

namespace Rewrite

/-- The elements of a document stand at the end of a way. -/
def ElementsAt (fields : FieldNames) (document : Value) (way : List Nat) (elements : Value) :
    Prop :=
  ∃ (root content : Entries Value) (first second : Nat), document = .object root ∧
    root[first]? = some (.text fields.content, .object content) ∧
    content[second]? = some (.text Treatment.elementsField, elements) ∧ way = [first, second]

/-- An object is reached in a document on a way: directly among the elements, or directly among the
children of an object that is reached. -/
inductive Reachable (fields : FieldNames) (document : Value) : List Nat → Entries Value → Prop where
  | element {start : List Nat} {elements : Value} {place : Nat} {element : Entries Value} :
      ElementsAt fields document start elements →
      elements.children[place]? = some (.object element) →
      Reachable fields document (start ++ [place]) element
  | child {way : List Nat} {element child : Entries Value} {index place : Nat} {children : Value} :
      Reachable fields document way element →
      element[index]? = some (.text Treatment.childrenField, children) →
      children.children[place]? = some (.object child) →
      Reachable fields document (way ++ [index, place]) child

variable {fields : FieldNames} {document held other : Value} {way start otherStart : List Nat}
  {element : Entries Value}

theorem ElementsAt.at? (standing : ElementsAt fields document start held) :
    document.at? start = some held := by
  obtain ⟨root, content, first, second, rfl, contentAt, elementsAt, rfl⟩ := standing
  rw [Value.at?_cons, Value.children_object_getElem?, contentAt, Option.map_some, Option.bind_some,
    Value.at?_cons, Value.children_object_getElem?, elementsAt]
  rfl

/-- What is reached on a way stands at its end. -/
theorem Reachable.at? (reachable : Reachable fields document way element) :
    document.at? way = some (.object element) := by
  induction reachable with
  | element standing found =>
      rw [Value.at?_append, standing.at?, Option.bind_some, Value.at?_cons, found]
      rfl
  | child _ located found ih =>
      rw [Value.at?_append, ih, Option.bind_some, Value.at?_cons, Value.children_object_getElem?,
        located, Option.map_some, Option.bind_some, Value.at?_cons, found]
      rfl

/-- Where no key is given twice the elements of a document stand in one place. -/
theorem ElementsAt.unique (distinct : document.DistinctKeys)
    (standing : ElementsAt fields document start held)
    (otherStanding : ElementsAt fields document otherStart other) :
    start = otherStart ∧ held = other := by
  obtain ⟨root, content, first, second, rfl, contentAt, elementsAt, rfl⟩ := standing
  obtain ⟨_, otherContent, otherFirst, otherSecond, same, otherContentAt, otherElementsAt, rfl⟩ :=
    otherStanding
  cases same
  obtain ⟨own, below⟩ := Value.DistinctKeys.object_iff.mp distinct
  obtain rfl := own.place_eq contentAt otherContentAt
  rw [contentAt] at otherContentAt
  cases otherContentAt
  have inner := (below _ (List.mem_of_getElem? contentAt)).keys
  obtain rfl := inner.place_eq elementsAt otherElementsAt
  rw [elementsAt] at otherElementsAt
  cases otherElementsAt
  exact ⟨rfl, rfl⟩

/-- Properties of what is reached stand at the end of a way, too. -/
theorem PropertiesAt.at? {properties : Entries Value}
    (found : PropertiesAt (Reachable fields document) way element properties) :
    document.at? way = some (.object properties) := by
  obtain ⟨start, index, rfl, reachable, located⟩ := found
  rw [Value.at?_append, reachable.at?, Option.bind_some, Value.at?_cons,
    Value.children_object_getElem?, located]
  rfl

/-!
## A treatment of properties
-/

section Treated

variable {ruleOf : String → Option FallibleRule} {stepId : String} {migrated : Value}

end Treated

end Rewrite

end Uplift
