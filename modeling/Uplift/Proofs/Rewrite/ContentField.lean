import Uplift.Proofs.Entries.Distinct
import Uplift.Proofs.Journal
import Uplift.Rewrite.Tree
import Uplift.Versions.Marker

/-!
# Fields of the content

Elements and operations are fields of the content, and a treatment of either gives the field another
value and leaves all else as it is. The marker is a field of its own. So it makes no difference to a
treatment whether a document is marked, nor to the marker whether the document is treated.
-/

set_option autoImplicit false

namespace Uplift.Rewrite

/-- The value of a field of the content, if the content is an object that has it. -/
def contentField? (fields : FieldNames) (field : String) : Value → Option Value
  | .object root =>
      match Entries.lookup (.text fields.content) root with
      | some (.object content) => Entries.lookup (.text field) content
      | _ => none
  | _ => none

/-- Gives a value to a field of the content, if the content is an object. -/
def putContentField (fields : FieldNames) (field : String) (changed : Value) : Value → Value
  | .object root =>
      match Entries.lookup (.text fields.content) root with
      | some (.object content) =>
          .object (Entries.put (.text fields.content)
            (.object (Entries.put (.text field) changed content)) root)
      | _ => .object root
  | other => other

variable {fields : FieldNames} {field : String} {document walked : Value}

theorem contentField?_eq_some_iff {found : Value} :
    contentField? fields field document = some found ↔
      ∃ root content : Entries Value, document = .object root ∧
        root.lookup (.text fields.content) = some (.object content) ∧
          content.lookup (.text field) = some found := by
  constructor
  · intro located
    cases document with
    | scalar value => cases located
    | array items => cases located
    | object root =>
        rw [contentField?] at located
        split at located
        · rename_i content contentFound
          exact ⟨root, content, rfl, contentFound, located⟩
        · cases located
  · rintro ⟨root, content, rfl, contentFound, located⟩
    rw [contentField?, contentFound]
    exact located

theorem putContentField_object {root content : Entries Value}
    (contentFound : root.lookup (.text fields.content) = some (.object content))
    (changed : Value) :
    putContentField fields field changed (.object root) =
      .object (root.put (.text fields.content)
        (.object (content.put (.text field) changed))) := by
  rw [putContentField, contentFound]

theorem putContentField_of_no_content {root : Entries Value}
    (noContent : ¬ ∃ content, Entries.lookup (.text fields.content) root =
      some (.object content)) (changed : Value) :
    putContentField fields field changed (.object root) = .object root := by
  rw [putContentField]
  split
  · rename_i content contentFound
    exact absurd ⟨content, contentFound⟩ noContent
  · rfl

theorem contentField?_of_no_content {root : Entries Value}
    (noContent : ¬ ∃ content, Entries.lookup (.text fields.content) root =
      some (.object content)) : contentField? fields field (.object root) = none := by
  rw [contentField?]
  split
  · rename_i content contentFound
    exact absurd ⟨content, contentFound⟩ noContent
  · rfl

theorem contentField?_putContentField {found : Value} (changed : Value)
    (located : contentField? fields field document = some found) :
    contentField? fields field (putContentField fields field changed document) = some changed := by
  obtain ⟨root, content, rfl, contentFound, _⟩ := contentField?_eq_some_iff.mp located
  rw [putContentField_object contentFound]
  exact contentField?_eq_some_iff.mpr
    ⟨_, _, rfl, Entries.lookup_put_same .., Entries.lookup_put_same ..⟩

theorem putContentField_putContentField (first second : Value) :
    putContentField fields field second (putContentField fields field first document) =
      putContentField fields field second document := by
  cases document with
  | scalar value => rfl
  | array items => rfl
  | object root =>
      by_cases object : ∃ content, Entries.lookup (.text fields.content) root =
          some (.object content)
      · obtain ⟨content, contentFound⟩ := object
        rw [putContentField_object contentFound, putContentField_object contentFound,
          putContentField_object (Entries.lookup_put_same ..), Entries.put_put_same,
          Entries.put_put_same]
      · rw [putContentField_of_no_content object]

/-!
## Elements and operations
-/

theorem overElements_eq (change : Value → Logged Fault Value) (document : Value) :
    overElements fields change document =
      match contentField? fields Treatment.elementsField document with
      | none => pure document
      | some found => change found >>= fun changed =>
          pure (putContentField fields Treatment.elementsField changed document) := by
  cases document with
  | scalar value => rfl
  | array items => rfl
  | object root =>
      unfold overElements contentField? putContentField
      dsimp only
      rcases Entries.lookup (.text fields.content) root with _ | scalar | items | content
      · rfl
      · rfl
      · rfl
      · dsimp only
        cases Entries.lookup (.text Treatment.elementsField) content <;> rfl

/-- The elements of a document are changed if it has any. -/
theorem overElements_eq_ok_iff {change : Value → Logged Fault Value} :
    (overElements fields change document).outcome = .ok walked ↔
      (contentField? fields Treatment.elementsField document = none ∧ walked = document) ∨
        ∃ found changed, contentField? fields Treatment.elementsField document = some found ∧
          (change found).outcome = .ok changed ∧
            walked = putContentField fields Treatment.elementsField changed document := by
  rw [overElements_eq]
  cases contentField? fields Treatment.elementsField document with
  | none => simp [eq_comm]
  | some found =>
      dsimp only
      rw [Logged.bind_outcome_ok]
      simp [eq_comm]

/-- A document has nowhere in which operations could stand, or null in their place. -/
def LacksOperations (fields : FieldNames) : Value → Prop
  | .object root =>
      match Entries.lookup (.text fields.content) root with
      | none | some .null => True
      | some (.object content) =>
          match Entries.lookup (.text Treatment.operationsField) content with
          | none | some .null => True
          | _ => False
      | _ => False
  | _ => False

/-- The operations of a document are changed if it has an array of them. -/
theorem overOperations_eq_ok_iff {change : List Value → Logged Fault (List Value)} :
    (overOperations fields change document).outcome = .ok walked ↔
      (LacksOperations fields document ∧ walked = document) ∨
        ∃ items changed,
          contentField? fields Treatment.operationsField document = some (.array items) ∧
          (change items).outcome = .ok changed ∧
            walked =
              putContentField fields Treatment.operationsField (.array changed) document := by
  cases document with
  | scalar value => simp [overOperations, contentField?, LacksOperations]
  | array items => simp [overOperations, contentField?, LacksOperations]
  | object root =>
      unfold overOperations contentField? putContentField LacksOperations
      simp only
      rcases Entries.lookup (.text fields.content) root with _ | ⟨scalar⟩ | items | content
      · simp [eq_comm]
      · cases scalar <;> simp [eq_comm]
      · simp
      · dsimp only
        rcases Entries.lookup (.text Treatment.operationsField) content with
          _ | ⟨scalar⟩ | items | inner
        · simp [eq_comm]
        · cases scalar <;> simp [eq_comm]
        · dsimp only
          rw [Logged.bind_outcome_ok]
          simp [eq_comm]
        · simp

end Uplift.Rewrite

/-!
## The marker
-/

namespace Uplift.Marker

open Rewrite

variable {fields : FieldNames} {field text : String} {document walked : Value}

theorem put_of_content {root content : Entries Value}
    (contentFound : root.lookup (.text fields.content) = some (.object content)) :
    put fields text (.object root) =
      .object (root.put (.text fields.content)
        (.object (content.put (.text fields.migrations) (.text text)))) := by
  rw [put, contentFound]

theorem put_of_no_content {root : Entries Value}
    (noContent : ¬ ∃ content, Entries.lookup (.text fields.content) root =
      some (.object content)) :
    put fields text (.object root) =
      .object (root.put (.text fields.migrations) (.text text)) := by
  rw [put]
  split
  · rename_i content contentFound
    exact absurd ⟨content, contentFound⟩ noContent
  · rfl

/-- Of two markers that are written the second counts. -/
theorem put_put (first second : String) (document : Value) :
    put fields second (put fields first document) = put fields second document := by
  cases document with
  | scalar value => rfl
  | array items => rfl
  | object root =>
      by_cases object : ∃ content, Entries.lookup (.text fields.content) root =
          some (.object content)
      · obtain ⟨content, contentFound⟩ := object
        rw [put_of_content contentFound, put_of_content contentFound,
          put_of_content (Entries.lookup_put_same ..), Entries.put_put_same, Entries.put_put_same]
      · have noContent : ¬ ∃ content, Entries.lookup (.text fields.content)
            (Entries.put (.text fields.migrations) (.text first) root) =
              some (.object content) := by
          rw [Entries.lookup_put_text]
          split
          · simp
          · exact object
        rw [put_of_no_content object, put_of_no_content object, put_of_no_content noContent,
          Entries.put_put_same]

/-- A field of the content is what it was before a marker was written. -/
theorem contentField?_put (apart : fields.migrations ≠ fields.content)
    (other : fields.migrations ≠ field) :
    contentField? fields field (put fields text document) =
      contentField? fields field document := by
  cases document with
  | scalar value => rfl
  | array items => rfl
  | object root =>
      by_cases object : ∃ content, Entries.lookup (.text fields.content) root =
          some (.object content)
      · obtain ⟨content, contentFound⟩ := object
        rw [put_of_content contentFound, contentField?, contentField?, Entries.lookup_put_same,
          contentFound]
        exact Entries.lookup_put_other _ _ (by simpa using other)
      · rw [put_of_no_content object, contentField?, contentField?,
          Entries.lookup_put_other _ _ (by simpa using apart)]

theorem put_putContentField {found changed : Value}
    (located : contentField? fields field document = some found)
    (other : fields.migrations ≠ field) :
    put fields text (putContentField fields field changed document) =
      putContentField fields field changed (put fields text document) := by
  obtain ⟨root, content, rfl, contentFound, fieldFound⟩ := contentField?_eq_some_iff.mp located
  have present := Entries.contains_of_lookup fieldFound
  rw [putContentField_object contentFound, put_of_content (Entries.lookup_put_same ..),
    put_of_content contentFound, putContentField_object (Entries.lookup_put_same ..),
    Entries.put_put_same, Entries.put_put_same,
    Entries.put_put_comm _ _ present (by simpa using other.symm)]

/-- The marker has a name of its own among the fields that treatments of the content look at. -/
structure Apart (fields : FieldNames) : Prop where
  content : fields.migrations ≠ fields.content
  elements : fields.migrations ≠ Treatment.elementsField
  operations : fields.migrations ≠ Treatment.operationsField

theorem apart_standard : Apart .standard := by
  constructor <;> decide

theorem lacksOperations_put (apart : Apart fields) (lacks : LacksOperations fields document) :
    LacksOperations fields (put fields text document) := by
  cases document with
  | scalar value => cases lacks
  | array items => cases lacks
  | object root =>
      by_cases object : ∃ content, Entries.lookup (.text fields.content) root =
          some (.object content)
      · obtain ⟨content, contentFound⟩ := object
        rw [put_of_content contentFound]
        dsimp only [LacksOperations] at lacks ⊢
        rw [contentFound] at lacks
        rw [Entries.lookup_put_same]
        dsimp only at lacks ⊢
        rwa [Entries.lookup_put_other _ _ (by simpa using apart.operations)]
      · rw [put_of_no_content object]
        dsimp only [LacksOperations] at lacks ⊢
        rwa [Entries.lookup_put_other _ _ (by simpa using apart.content)]

/-- A treatment of elements does the same to a document whether it is marked or not. -/
theorem overElements_put {change : Value → Logged Fault Value} (apart : Apart fields)
    (succeeded : (overElements fields change document).outcome = .ok walked) :
    (overElements fields change (put fields text document)).outcome =
      .ok (put fields text walked) := by
  rw [overElements_eq_ok_iff, contentField?_put apart.content apart.elements]
  rcases overElements_eq_ok_iff.mp succeeded with
    ⟨absent, rfl⟩ | ⟨found, changed, located, changing, rfl⟩
  · exact .inl ⟨absent, rfl⟩
  · exact .inr ⟨found, changed, located, changing, put_putContentField located apart.elements⟩

/-- A treatment of operations does the same to a document whether it is marked or not. -/
theorem overOperations_put {change : List Value → Logged Fault (List Value)} (apart : Apart fields)
    (succeeded : (overOperations fields change document).outcome = .ok walked) :
    (overOperations fields change (put fields text document)).outcome =
      .ok (put fields text walked) := by
  rw [overOperations_eq_ok_iff, contentField?_put apart.content apart.operations]
  rcases overOperations_eq_ok_iff.mp succeeded with
    ⟨lacks, rfl⟩ | ⟨items, changed, located, changing, rfl⟩
  · exact .inl ⟨lacksOperations_put apart lacks, rfl⟩
  · exact .inr ⟨items, changed, located, changing, put_putContentField located apart.operations⟩

end Uplift.Marker

namespace Uplift

/-- A treatment looks at the content alone, and changes nothing else. -/
def Treatment.StaysInContent : Treatment → Prop
  | promote | everyObject _ => False
  | eachElement _ | elementProperties _ | eachOperation _ => True

theorem Marker.onTree_put {fields : FieldNames} {stepId text : String} {treatment : Treatment}
    {document walked : Value} (apart : Apart fields) (inside : treatment.StaysInContent)
    (succeeded : (Rewrite.onTree fields stepId treatment document).outcome = .ok walked) :
    (Rewrite.onTree fields stepId treatment (put fields text document)).outcome =
      .ok (put fields text walked) := by
  cases treatment with
  | promote => cases inside
  | everyObject rule => cases inside
  | eachElement rule => exact overElements_put apart succeeded
  | elementProperties ruleOf => exact overElements_put apart succeeded
  | eachOperation rule => exact overOperations_put apart succeeded

end Uplift
