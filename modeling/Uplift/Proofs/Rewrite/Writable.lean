import Uplift.Proofs.Journal
import Uplift.Proofs.Outcome
import Uplift.Proofs.Rewrite.Walk
import Uplift.Proofs.Writable

/-!
# Treatments keep documents writable

A rule moves and takes away what is there, and sets fields to values of its own. If these values can
be written then every treatment by the rule makes a document that can be written from one that can.
-/

set_option autoImplicit false

namespace Uplift

/-- The values that an amendment sets can be written. -/
def Amendment.Writable (amendment : Amendment) : Prop :=
  ∀ field value, Edit.set field value ∈ amendment.edits → value.isWritable = true

def Rule.Writable (rule : Rule) : Prop :=
  ∀ stepId entries, (rule stepId entries).Writable

def FallibleRule.Writable (rule : FallibleRule) : Prop :=
  ∀ stepId entries amendment, rule stepId entries = .ok amendment → amendment.Writable

def PropertyRules.Writable (ruleOf : String → Option FallibleRule) : Prop :=
  ∀ elementType rule, ruleOf elementType = some rule → FallibleRule.Writable rule

/-- The values that a treatment sets can be written. -/
def Treatment.Writable : Treatment → Prop
  | promote => True
  | everyObject rule | eachElement rule | eachOperation rule => FallibleRule.Writable rule
  | elementProperties ruleOf => PropertyRules.Writable ruleOf

/-!
## Amendments
-/

namespace Amendment

theorem writable_none : Amendment.none.Writable := nofun

theorem writable_warn (stepId message : String) : (warn stepId message).Writable := nofun

theorem writable_of_no_set {amendment : Amendment}
    (unset : ∀ field value, Edit.set field value ∉ amendment.edits) : amendment.Writable :=
  fun field value member => absurd member (unset field value)

private theorem writable_apply_edit {entries : Entries Value} (writable : Entries.Writable entries)
    {edit : Edit Value} (own : ∀ field value, edit = .set field value → value.isWritable = true) :
    Entries.Writable (Edit.apply entries edit) := by
  cases edit with
  | drop field => exact writable.erase _
  | set field value => exact writable.putField field (own field value rfl)
  | rename old new =>
      simp only [Edit.apply]
      split
      · exact writable
      · rename_i value found
        exact (writable.erase _).putField new (writable.lookup found)

private theorem writable_apply_edits {edits : List (Edit Value)}
    (own : ∀ field value, Edit.set field value ∈ edits → value.isWritable = true)
    {entries : Entries Value} (writable : Entries.Writable entries) :
    Entries.Writable (edits.foldl Edit.apply entries) := by
  induction edits generalizing entries with
  | nil => exact writable
  | cons edit rest ih =>
      have first : Entries.Writable (Edit.apply entries edit) :=
        writable_apply_edit writable fun field value same => own field value (same ▸ .head _)
      exact ih (fun field value member => own field value (.tail _ member)) first

theorem Writable.apply {amendment : Amendment} (own : amendment.Writable)
    {entries : Entries Value} (writable : Entries.Writable entries) :
    Entries.Writable (amendment.apply entries) :=
  writable_apply_edits own writable

end Amendment

namespace Rule

theorem Writable.fallible {rule : Rule} (own : rule.Writable) :
    FallibleRule.Writable rule.fallible := by
  intro stepId entries amendment result
  cases result
  exact own stepId entries

theorem writable_renameField (old new : String) : (renameField old new).Writable := by
  intro stepId entries
  unfold renameField
  split
  · exact Amendment.writable_none
  · split
    · exact Amendment.writable_warn _ _
    · exact Amendment.writable_of_no_set (by simp [Amendment.ofEdits])

end Rule

/-- A conditional edit keeps objects writable if what it sets can be written. -/
theorem FallibleRule.writable_editIf {ask : Outline → Except Fault Bool} {edit : Edit Value}
    (own : ∀ field value, edit = .set field value → value.isWritable = true) (field : String) :
    FallibleRule.Writable (editIf ask field edit) := by
  intro stepId entries amendment asked other value member
  unfold editIf at asked
  split at asked
  · cases asked
    cases member
  · obtain ⟨answer, _, rfl⟩ := Outcome.map_eq_ok_iff.mp asked
    cases answer with
    | false => cases member
    | true => exact own other value (List.mem_singleton.mp member).symm

theorem FallibleRule.writable_drop (ask : Outline → Except Fault Bool) (field : String) :
    FallibleRule.Writable (editIf ask field (.drop field)) :=
  writable_editIf (fun _ _ same => by cases same) field

namespace Rewrite

/-!
## Walks over a tree
-/

/-- What a visit of each value keeps writable, a walk over all of them keeps writable. -/
theorem isWritable_walkItems {visit : Value → Logged Fault Value} {items walked : List Value}
    (kept : ∀ item ∈ items, ∀ other, (visit item).outcome = .ok other → item.isWritable = true →
      other.isWritable = true)
    (walks : (walkItems visit items).outcome = .ok walked)
    (writable : ∀ item ∈ items, item.isWritable = true) :
    ∀ item ∈ walked, item.isWritable = true := by
  have pairs := walkItems_eq_ok_iff.mp walks
  clear walks
  induction pairs with
  | nil => exact nofun
  | cons visited _ ih =>
      obtain ⟨first, others⟩ := List.forall_mem_cons.mp writable
      obtain ⟨firstKept, othersKept⟩ := List.forall_mem_cons.mp kept
      exact List.forall_mem_cons.mpr ⟨firstKept _ visited first, ih othersKept others⟩

theorem writable_walkValues {visit : Scalar → Value → Logged Fault Value}
    {entries walked : List (Scalar × Value)}
    (kept : ∀ entry ∈ entries, ∀ other, (visit entry.1 entry.2).outcome = .ok other →
      entry.2.isWritable = true → other.isWritable = true)
    (walks : (walkValues visit entries).outcome = .ok walked)
    (writable : Entries.Writable entries) : Entries.Writable walked := by
  have pairs := walkValues_eq_ok_iff.mp walks
  clear walks
  induction pairs with
  | nil => exact nofun
  | @cons entry other rest walked visited _ ih =>
      obtain ⟨⟨keyWritable, first⟩, others⟩ := Entries.Writable.cons_iff.mp writable
      obtain ⟨firstKept, othersKept⟩ := List.forall_mem_cons.mp kept
      refine Entries.Writable.cons_iff.mpr
        ⟨⟨visited.1 ▸ keyWritable, firstKept _ visited.2 first⟩, ih othersKept others⟩

theorem isWritable_everyObject {rule : FallibleRule} (own : FallibleRule.Writable rule)
    {stepId : String} {value treated : Value} (treats : Treats (rule stepId) value treated)
    (writable : value.isWritable = true) : treated.isWritable = true := by
  induction value using Value.induction generalizing treated with
  | scalar scalar =>
      cases treats
      exact writable
  | array items ih =>
      rw [Treats, everyObject, everyObjectItems_eq] at treats
      obtain ⟨others, walks, same⟩ := Logged.bind_outcome_ok.mp treats
      cases same
      exact Value.isWritable_array_iff.mpr (isWritable_walkItems (fun item member _ => ih item member)
        walks (Value.isWritable_array_iff.mp writable))
  | object entries ih =>
      rw [Treats, everyObject, everyObjectEntries_eq] at treats
      obtain ⟨amendment, asked, later⟩ := Logged.bind_outcome_ok.mp treats
      obtain ⟨below, walks, same⟩ := Logged.bind_outcome_ok.mp later
      cases same
      have below := writable_walkValues (fun entry member _ => ih entry member) walks
        (Value.isWritable_object_iff.mp writable)
      exact Value.isWritable_object_iff.mpr
        ((own stepId _ _ (ask_eq_ok_iff.mp asked)).apply below)

theorem isWritable_thisObject {rule : FallibleRule} (own : FallibleRule.Writable rule)
    {stepId : String} {value treated : Value}
    (treats : (thisObject (rule stepId) value).outcome = .ok treated)
    (writable : value.isWritable = true) : treated.isWritable = true := by
  cases value with
  | scalar scalar =>
      cases treats
      exact writable
  | array items =>
      cases treats
      exact writable
  | object entries =>
      obtain ⟨amendment, asked, rfl⟩ := thisObject_eq_ok_iff.mp treats
      rw [Value.isWritable_object_iff] at writable ⊢
      exact (own stepId _ _ asked).apply writable

theorem isWritable_changeChildren {change : Value → Logged Fault Value}
    (kept : ∀ value changed, (change value).outcome = .ok changed → value.isWritable = true →
      changed.isWritable = true) {value changed : Value}
    (changes : (changeChildren change value).outcome = .ok changed)
    (writable : value.isWritable = true) : changed.isWritable = true := by
  cases value with
  | scalar scalar =>
      cases changes
      exact writable
  | array items =>
      obtain ⟨walked, walks, same⟩ := Logged.bind_outcome_ok.mp changes
      cases same
      exact Value.isWritable_array_iff.mpr (isWritable_walkItems (fun item _ => kept item) walks
        (Value.isWritable_array_iff.mp writable))
  | object entries =>
      obtain ⟨walked, walks, same⟩ := Logged.bind_outcome_ok.mp changes
      cases same
      exact Value.isWritable_object_iff.mpr (writable_walkValues (fun entry _ => kept entry.2) walks
        (Value.isWritable_object_iff.mp writable))

private theorem writable_propertiesAmendment {ruleOf : String → Option FallibleRule}
    (own : PropertyRules.Writable ruleOf) {elementType stepId : String} {entries : Entries Value}
    {amendment : Amendment}
    (result : propertiesAmendment ruleOf elementType stepId entries = .ok amendment) :
    amendment.Writable := by
  unfold propertiesAmendment at result
  split at result
  · rename_i chosen _
    exact own _ _ chosen _ _ _ result
  · cases result
    exact Amendment.writable_none

private theorem writable_amendProperties {amendment : Amendment} (own : amendment.Writable)
    {entries : Entries Value} (writable : Entries.Writable entries) :
    Entries.Writable (amendProperties amendment entries) := by
  unfold amendProperties
  split
  · rename_i properties found
    have propertiesWritable := Value.isWritable_object_iff.mp (writable.lookup found)
    exact writable.putField _ (Value.isWritable_object_iff.mpr (own.apply propertiesWritable))
  · exact writable

/-- Visits of elements, and walks over what lies below, keep documents writable. -/
theorem isWritable_element_and_elements {ruleOf : String → Option FallibleRule}
    (own : PropertyRules.Writable ruleOf) (stepId : String) (value : Value)
    (writable : value.isWritable = true) :
    (∀ visited, (element ruleOf stepId value).outcome = .ok visited → visited.isWritable = true) ∧
      ∀ walked, (elements ruleOf stepId value).outcome = .ok walked →
        walked.isWritable = true := by
  induction value using Value.induction with
  | scalar scalar =>
      constructor
      · rintro visited ⟨⟩
        exact writable
      · rintro walked ⟨⟩
        exact writable
  | array items ih =>
      constructor
      · rintro visited ⟨⟩
        exact writable
      · intro walked walks
        rw [elements, elementItems_eq] at walks
        obtain ⟨others, walking, same⟩ := Logged.bind_outcome_ok.mp walks
        cases same
        exact Value.isWritable_array_iff.mpr (isWritable_walkItems
          (fun item member other visits itemWritable => (ih item member itemWritable).1 other visits)
          walking (Value.isWritable_array_iff.mp writable))
  | object entries ih =>
      have entriesWritable := Value.isWritable_object_iff.mp writable
      constructor
      · intro visited visits
        obtain ⟨_, amendment, walked, asked, below, rfl⟩ := visits_object_iff.mp visits
        rw [← elementEntries_eq_ok_iff, elementEntries_eq] at below
        refine Value.isWritable_object_iff.mpr (writable_amendProperties
          (writable_propertiesAmendment own asked) (writable_walkValues ?_ below entriesWritable))
        intro entry member other walks entryWritable
        unfold walkEntry at walks
        split at walks
        · exact (ih entry member entryWritable).2 other walks
        · cases walks
          exact entryWritable
      · intro walked walks
        rw [elements, elementValues_eq] at walks
        obtain ⟨others, walking, same⟩ := Logged.bind_outcome_ok.mp walks
        cases same
        exact Value.isWritable_object_iff.mpr (writable_walkValues
          (fun entry member other visits entryWritable =>
            (ih entry member entryWritable).1 other visits) walking entriesWritable)

private theorem writable_kept (fields : FieldNames) {entries : Entries Value}
    (writable : Entries.Writable entries) : Entries.Writable (Promotion.kept fields entries) := by
  unfold Promotion.kept
  generalize [fields.id, fields.name] = names
  suffices kept : ∀ started : Entries Value, Entries.Writable started →
      Entries.Writable (names.foldl _ started) from kept [] Entries.Writable.nil
  induction names with
  | nil => exact fun _ startedWritable => startedWritable
  | cons name rest ih =>
      intro started startedWritable
      refine ih _ ?_
      simp only
      split
      · exact startedWritable
      · rename_i value found
        exact startedWritable.putField name (writable.lookup found)

theorem isWritable_promote {fields : FieldNames} {document promoted : Value}
    (result : promote fields document = .ok promoted) (writable : document.isWritable = true) :
    promoted.isWritable = true := by
  cases document with
  | scalar value => cases result
  | array items => cases result
  | object entries =>
      cases result
      have entriesWritable := Value.isWritable_object_iff.mp writable
      have movedWritable : (Value.object (Promotion.moved fields entries)).isWritable = true :=
        Value.isWritable_object_iff.mpr (entriesWritable.filter _)
      exact Value.isWritable_object_iff.mpr
        ((writable_kept fields entriesWritable).putField _ movedWritable)

private theorem isWritable_putContent {fields : FieldNames} {root content : Entries Value}
    {field : String} {changed : Value} (rootWritable : Entries.Writable root)
    (found : Entries.lookup (.text fields.content) root = some (.object content))
    (changedWritable : changed.isWritable = true) :
    (Value.object (Entries.put (.text fields.content)
      (.object (Entries.put (.text field) changed content)) root)).isWritable = true := by
  have contentWritable := Value.isWritable_object_iff.mp (rootWritable.lookup found)
  exact Value.isWritable_object_iff.mpr (rootWritable.putField _
    (Value.isWritable_object_iff.mpr (contentWritable.putField _ changedWritable)))

theorem isWritable_overElements {fields : FieldNames} {change : Value → Logged Fault Value}
    (kept : ∀ found changed, (change found).outcome = .ok changed → found.isWritable = true →
      changed.isWritable = true) {document walked : Value}
    (result : (overElements fields change document).outcome = .ok walked)
    (writable : document.isWritable = true) : walked.isWritable = true := by
  unfold overElements at result
  split at result
  · rename_i root
    have rootWritable := Value.isWritable_object_iff.mp writable
    split at result
    · rename_i content contentFound
      split at result
      · rename_i found elementsFound
        obtain ⟨changed, changing, final⟩ := Logged.bind_outcome_ok.mp result
        cases final
        have contentWritable := Value.isWritable_object_iff.mp (rootWritable.lookup contentFound)
        exact isWritable_putContent rootWritable contentFound
          (kept found changed changing (contentWritable.lookup elementsFound))
      · cases result
        exact writable
    · cases result
      exact writable
  · cases result
    exact writable

theorem isWritable_overOperations {fields : FieldNames}
    {change : List Value → Logged Fault (List Value)}
    (kept : ∀ items changed, (change items).outcome = .ok changed →
      (∀ item ∈ items, item.isWritable = true) → ∀ item ∈ changed, item.isWritable = true)
    {document walked : Value}
    (result : (overOperations fields change document).outcome = .ok walked)
    (writable : document.isWritable = true) : walked.isWritable = true := by
  unfold overOperations at result
  split at result
  · rename_i root
    have rootWritable := Value.isWritable_object_iff.mp writable
    split at result
    · cases result
      exact writable
    · cases result
      exact writable
    · rename_i content contentFound
      split at result
      · cases result
        exact writable
      · cases result
        exact writable
      · rename_i items itemsFound
        obtain ⟨changed, changing, final⟩ := Logged.bind_outcome_ok.mp result
        cases final
        have contentWritable := Value.isWritable_object_iff.mp (rootWritable.lookup contentFound)
        have itemsWritable := Value.isWritable_array_iff.mp (contentWritable.lookup itemsFound)
        exact isWritable_putContent rootWritable contentFound
          (Value.isWritable_array_iff.mpr (kept items changed changing itemsWritable))
      · cases result
    · cases result
  · cases result

/-- A treatment makes a document that can be written from one that can. -/
theorem isWritable_onTree {fields : FieldNames} {stepId : String} {treatment : Treatment}
    (own : treatment.Writable) {document treated : Value}
    (result : (onTree fields stepId treatment document).outcome = .ok treated)
    (writable : document.isWritable = true) : treated.isWritable = true := by
  cases treatment with
  | promote => exact isWritable_promote result writable
  | everyObject rule => exact isWritable_everyObject own result writable
  | eachElement rule =>
      exact isWritable_overElements (fun _ _ changes => isWritable_changeChildren
        (fun _ _ => isWritable_thisObject own) changes) result writable
  | elementProperties ruleOf =>
      exact isWritable_overElements (fun found changed changes foundWritable =>
        (isWritable_element_and_elements own stepId found foundWritable).2 changed changes) result
          writable
  | eachOperation rule =>
      exact isWritable_overOperations (fun _ _ walks => isWritable_walkItems
        (fun _ _ _ => isWritable_thisObject own) walks) result writable

end Rewrite

end Uplift
