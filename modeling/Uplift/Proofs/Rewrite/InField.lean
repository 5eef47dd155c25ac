import Uplift.Proofs.Rewrite.ContentField
import Uplift.Proofs.Rewrite.Walk
import Uplift.Proofs.Value.Distinct

/-!
# Changes inside a field

The elements of a document and the properties and children of an element are each reached by going
into a field of an object. Where no object has a key twice, a walk over the elements, and the visit of
one, comes to going into one field after the other.
-/

set_option autoImplicit false

namespace Uplift.Rewrite

/-- Changes what stands in a field of an object; without that field nothing is changed, and neither
is what is no object. -/
def inField (field : String) (change : Value → Logged Fault Value) : Value → Logged Fault Value
  | .object entries =>
      match Entries.lookup (.text field) entries with
      | none => pure (.object entries)
      | some found => do
          let changed ← change found
          pure (.object (Entries.put (.text field) changed entries))
  | other => pure other

variable {fields : FieldNames} {field : String} {entries : Entries Value} {document found : Value}
  {change : Value → Logged Fault Value} {ruleOf : String → Option FallibleRule} {stepId : String}

theorem inField_of_none (absent : entries.lookup (.text field) = none) :
    inField field change (.object entries) = pure (.object entries) := by
  rw [inField, absent]

theorem inField_of_some (located : entries.lookup (.text field) = some found) :
    inField field change (.object entries) = change found >>= fun changed =>
      pure (.object (entries.put (.text field) changed)) := by
  rw [inField, located]

/-- Where a change leaves what it finds, going there changes nothing. -/
theorem inField_of_pure (distinct : entries.DistinctKeys)
    (leaves : ∀ found, entries.lookup (.text field) = some found → change found = pure found) :
    inField field change (.object entries) = pure (.object entries) := by
  cases located : entries.lookup (.text field) with
  | none => exact inField_of_none located
  | some found =>
      rw [inField_of_some located, leaves found located, Logged.pure_bind,
        distinct.put_eq_self located]

theorem overElements_eq_inField (distinct : document.DistinctKeys)
    (change : Value → Logged Fault Value) :
    overElements fields change document =
      inField fields.content (inField Treatment.elementsField change) document := by
  cases document with
  | scalar value => rfl
  | array items => rfl
  | object root =>
      by_cases isObject : ∃ content, Entries.lookup (.text fields.content) root =
          some (.object content)
      · obtain ⟨content, contentFound⟩ := isObject
        rw [inField_of_some contentFound, overElements, contentFound]
        dsimp only
        cases located : Entries.lookup (.text Treatment.elementsField) content with
        | none =>
            rw [inField_of_none located, Logged.pure_bind,
              distinct.keys.put_eq_self contentFound]
        | some found =>
            rw [inField_of_some located, Logged.bind_bind]
            rfl
      · rw [overElements_eq, contentField?_of_no_content isObject]
        refine (inField_of_pure distinct.keys fun found located => ?_).symm
        cases found with
        | scalar value => rfl
        | array items => rfl
        | object content => exact absurd ⟨content, located⟩ isObject

/-!
## Elements
-/

theorem elements_eq_changeChildren (value : Value) :
    elements ruleOf stepId value = changeChildren (element ruleOf stepId) value := by
  cases value with
  | scalar value => rfl
  | array items => rw [elements, changeChildren, elementItems_eq]
  | object entries => rw [elements, changeChildren, elementValues_eq]

/-- Entries that a walk leaves as they are can be passed over. -/
private theorem walkValues_append {visit : Scalar → Value → Logged Fault Value}
    {front : List (Scalar × Value)} (leaves : ∀ entry ∈ front, visit entry.1 entry.2 = pure entry.2)
    (back : List (Scalar × Value)) :
    walkValues visit (front ++ back) =
      walkValues visit back >>= fun walked => pure (front ++ walked) := by
  induction front with
  | nil => exact (Logged.bind_pure _).symm
  | cons entry rest ih =>
      obtain ⟨key, value⟩ := entry
      obtain ⟨first, others⟩ := List.forall_mem_cons.mp leaves
      rw [List.cons_append, walkValues, first, Logged.pure_bind, ih others, Logged.bind_bind]
      rfl

/-- Below an element a walk goes into the children, and nowhere else. -/
theorem elementEntries_eq_of_distinct (distinct : entries.DistinctKeys) :
    elementEntries ruleOf stepId entries =
      match entries.lookup (.text Treatment.childrenField) with
      | none => pure entries
      | some found => elements ruleOf stepId found >>= fun changed =>
          pure (entries.put (.text Treatment.childrenField) changed) := by
  have passes {part : Entries Value} (absent : part.contains (.text Treatment.childrenField) = false) :
      ∀ entry ∈ part, walkEntry ruleOf stepId entry.1 entry.2 = pure entry.2 := by
    intro entry member
    rw [walkEntry, if_neg]
    rw [Scalar.sameKey_comm]
    simp only [Entries.contains, List.any_eq_false] at absent
    exact absent entry member
  have passed {back : Entries Value}
      (absent : back.contains (.text Treatment.childrenField) = false) :
      walkValues (walkEntry ruleOf stepId) back = pure back := by
    have walked := walkValues_append (passes absent) []
    rwa [walkValues, Logged.pure_bind, List.append_nil] at walked
  rw [elementEntries_eq]
  cases located : entries.lookup (.text Treatment.childrenField) with
  | none => exact passed (Entries.lookup_eq_none_iff.mp located)
  | some found =>
      obtain ⟨front, back, rfl⟩ := List.append_of_mem (Entries.mem_of_lookup_text located)
      have absent := distinct.contains_beside
      rw [Entries.contains, List.any_append, Bool.or_eq_false_iff] at absent
      rw [walkValues_append (passes absent.1), walkValues, passed absent.2, walkEntry,
        if_pos (Scalar.sameKey_refl _), Logged.bind_bind]
      refine congrArg (elements ruleOf stepId found >>= ·) (funext fun changed => ?_)
      rw [distinct.put_middle]
      rfl

/-- What a rule makes of the properties of an element of a type. -/
def treatProperties (ruleOf : String → Option FallibleRule) (stepId type : String) :
    Value → Logged Fault Value :=
  match ruleOf type with
  | some rule => thisObject (rule stepId)
  | none => pure

theorem amendProperties_none (distinct : entries.DistinctKeys) :
    amendProperties .none entries = entries := by
  cases found : properties? entries with
  | none => exact amendProperties_of_none found
  | some properties =>
      rw [amendProperties_of_properties found]
      exact distinct.put_eq_self (properties?_eq_some_iff.mp found)

/-- To amend the properties is to go into their field. -/
theorem amendProperties_eq_inField (distinct : entries.DistinctKeys) (type : String) :
    (Logged.ofExcept (propertiesAmendment ruleOf type stepId entries) >>= fun amendment =>
      noteAll amendment.notes >>= fun _ =>
        pure (Value.object (amendProperties amendment entries))) =
      inField Treatment.propertiesField (treatProperties ruleOf stepId type) (.object entries) := by
  have idle (asked : propertiesAmendment ruleOf type stepId entries = .ok .none)
      (leaves : ∀ found, entries.lookup (.text Treatment.propertiesField) = some found →
        treatProperties ruleOf stepId type found = pure found) :
      (Logged.ofExcept (propertiesAmendment ruleOf type stepId entries) >>= fun amendment =>
        noteAll amendment.notes >>= fun _ =>
          pure (Value.object (amendProperties amendment entries))) =
        inField Treatment.propertiesField (treatProperties ruleOf stepId type) (.object entries) := by
    rw [inField_of_pure distinct leaves, asked]
    exact congrArg (fun entries => pure (Value.object entries)) (amendProperties_none distinct)
  cases chosen : ruleOf type with
  | none =>
      refine idle (propertiesAmendment_of_no_rule chosen) fun found _ => ?_
      rw [treatProperties, chosen]
  | some rule =>
      cases held : properties? entries with
      | none =>
          refine idle (propertiesAmendment_of_none held) fun found located => ?_
          rw [treatProperties, chosen]
          cases found with
          | scalar value => rfl
          | array items => rfl
          | object properties =>
              rw [properties?_eq_some_iff.mpr located] at held
              cases held
      | some properties =>
          rw [propertiesAmendment_of_properties held, amendmentFor, chosen,
            inField_of_some (properties?_eq_some_iff.mp held), treatProperties, chosen]
          dsimp only
          simp only [thisObject, ask, Logged.bind_bind, Logged.pure_bind,
            amendProperties_of_properties held]

private theorem amendProperties_put (amendment : Amendment) (changed : Value)
    (entries : Entries Value) :
    amendProperties amendment (entries.put (.text Treatment.childrenField) changed) =
      (amendProperties amendment entries).put (.text Treatment.childrenField) changed := by
  have apart : (Scalar.text Treatment.propertiesField).sameKey (.text Treatment.childrenField) =
      false := by decide
  have same : properties? (entries.put (.text Treatment.childrenField) changed) =
      properties? entries := by
    rw [properties?, properties?, Entries.lookup_put_text, if_neg (by decide)]
  cases held : properties? entries with
  | none => rw [amendProperties_of_none held, amendProperties_of_none (same.trans held)]
  | some properties =>
      rw [amendProperties_of_properties held, amendProperties_of_properties (same.trans held)]
      exact Entries.put_put_comm _ _
        (Entries.contains_of_lookup (properties?_eq_some_iff.mp held)) apart

/-- A visit of an element notes it, and goes into its properties and then into its children. -/
theorem element_object (distinct : entries.DistinctKeys) :
    element ruleOf stepId (.object entries) =
      Logged.ofExcept (Treatment.Visit.read (outlines entries)) >>= fun visit =>
        Logged.note (visit.note stepId) >>= fun _ =>
          inField Treatment.propertiesField (treatProperties ruleOf stepId visit.elementType)
              (.object entries) >>=
            inField Treatment.childrenField (elements ruleOf stepId) := by
  have inside (amendment : Amendment) :
      (elementEntries ruleOf stepId entries >>= fun walked =>
        pure (Value.object (amendProperties amendment walked))) =
        inField Treatment.childrenField (elements ruleOf stepId)
          (.object (amendProperties amendment entries)) := by
    have other : Treatment.childrenField ≠ Treatment.propertiesField := by decide
    rw [elementEntries_eq_of_distinct distinct]
    cases located : entries.lookup (.text Treatment.childrenField) with
    | none => rw [inField_of_none ((lookup_amendProperties other).trans located), Logged.pure_bind]
    | some found =>
        rw [inField_of_some ((lookup_amendProperties other).trans located), Logged.bind_bind]
        refine congrArg (elements ruleOf stepId found >>= ·) (funext fun changed => ?_)
        rw [Logged.pure_bind, amendProperties_put]
  rw [element]
  refine congrArg (Logged.ofExcept _ >>= ·) (funext fun visit => ?_)
  refine congrArg (Logged.note _ >>= ·) (funext fun _ => ?_)
  rw [← amendProperties_eq_inField distinct, Logged.bind_bind]
  refine congrArg (Logged.ofExcept _ >>= ·) (funext fun amendment => ?_)
  simp only [Logged.bind_bind, Logged.pure_bind, inside]

end Uplift.Rewrite
