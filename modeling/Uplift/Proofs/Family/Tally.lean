import Uplift.Proofs.Family.Tidying
import Uplift.Proofs.Journal.Tally
import Uplift.Proofs.Rewrite.EveryObject

/-!
# Warnings of the families' steps

The rules of the families warn in the step that they are applied in, and so do the treatments that
apply them to objects, elements and operations: no walk over a document adds a warning of its own.
-/

set_option autoImplicit false

namespace Uplift

/-- A rule warns in the step that it is applied in. -/
def FallibleRule.WarnsInStep (rule : FallibleRule) : Prop :=
  ∀ stepId entries amendment, rule stepId entries = .ok amendment →
    ∀ note ∈ amendment.notes, note.WarnsIn (· = stepId)

def Rule.WarnsInStep (rule : Rule) : Prop :=
  ∀ stepId entries, ∀ note ∈ (rule stepId entries).notes, note.WarnsIn (· = stepId)

theorem Rule.WarnsInStep.fallible {rule : Rule} (warns : rule.WarnsInStep) :
    rule.fallible.WarnsInStep := by
  intro stepId entries amendment asked
  cases asked
  exact warns stepId entries

/-- The rules of a treatment warn in the step that it is carried out in. -/
def Treatment.WarnsInStep : Treatment → Prop
  | promote => True
  | everyObject rule | eachElement rule | eachOperation rule => rule.WarnsInStep
  | elementProperties ruleOf =>
      ∀ elementType rule, ruleOf elementType = some rule → FallibleRule.WarnsInStep rule

/-!
## Rules
-/

namespace Rule

theorem warnsInStep_of_silent {rule : Rule}
    (silent : ∀ stepId entries, (rule stepId entries).notes = []) : rule.WarnsInStep := by
  intro stepId entries note member
  rw [silent] at member
  cases member

theorem warnsInStep_renameField (old new : String) : (renameField old new).WarnsInStep := by
  intro stepId entries
  unfold renameField
  split
  · exact nofun
  · split
    · exact List.forall_mem_singleton.mpr rfl
    · exact nofun

end Rule

theorem FallibleRule.warnsInStep_editIf (question : Outline → Except Fault Bool) (field : String)
    (edit : Edit Value) : (editIf question field edit).WarnsInStep := by
  intro stepId entries amendment asked
  rw [Chain.notes_editIf asked]
  exact nofun

namespace Chain

theorem warnsInStep_settleFailureHandling : Rule.WarnsInStep settleFailureHandling :=
  Rule.warnsInStep_of_silent notes_settleFailureHandling

theorem warnsInStep_readPriority : FallibleRule.WarnsInStep readPriority := by
  intro stepId entries amendment asked
  unfold readPriority at asked
  split at asked
  · split at asked
    · obtain ⟨priority, _, rfl⟩ := Outcome.map_eq_ok_iff.mp asked
      exact nofun
    · cases asked
      exact List.forall_mem_singleton.mpr rfl
  · cases asked
    exact nofun

end Chain

theorem Service.warnsInStep_nameOperation : FallibleRule.WarnsInStep nameOperation := by
  intro stepId entries amendment asked
  unfold nameOperation at asked
  obtain ⟨given, _, naming⟩ := Outcome.bind_eq_ok_iff.mp asked
  split at naming
  · cases naming
    exact nofun
  · obtain ⟨name, _, made⟩ := Outcome.bind_eq_ok_iff.mp naming
    split at made
    · cases made
      exact nofun
    · obtain ⟨operationId, _, same⟩ := Outcome.bind_eq_ok_iff.mp made
      cases same
      exact List.forall_mem_singleton.mpr ⟨by simp [Level.name], by simp [Event.ownFields]⟩

theorem Family.warnsInStep_treatments (family : Family) {blueprint : Blueprint}
    {treatment : Treatment} (known : blueprint ∈ family.blueprints)
    (member : treatment ∈ blueprint.treatments) : treatment.WarnsInStep :=
  forall_treatments trivial (Rule.warnsInStep_renameField _ _).fallible
    (FallibleRule.warnsInStep_editIf _ _ _) (Rule.warnsInStep_renameField _ _).fallible
    (fun _ _ => Chain.forall_propertyRules102 (FallibleRule.warnsInStep_editIf _ _ _)
      Chain.warnsInStep_settleFailureHandling.fallible Chain.warnsInStep_readPriority
      (FallibleRule.warnsInStep_editIf _ _ _))
    (fun _ _ => Chain.forall_propertyRules103 (FallibleRule.warnsInStep_editIf _ _ _)
      (FallibleRule.warnsInStep_editIf _ _ _))
    Service.warnsInStep_nameOperation known member

/-!
## Treatments
-/

namespace Rewrite

variable {ruleOf : String → Option FallibleRule} {stepId : String} {fields : FieldNames}

variable {steps : String → Prop}

theorem warnsIn_note (stepId : String) (visit : Treatment.Visit) :
    (visit.note stepId).WarnsIn steps :=
  ⟨by simp [Level.name], by simp [Event.ownFields]⟩

theorem warnsIn_propertiesAmendment
    (warn : ∀ elementType rule, ruleOf elementType = some rule → ∀ entries amendment,
      rule stepId entries = .ok amendment → ∀ note ∈ amendment.notes, note.WarnsIn steps)
    {type : String} {entries : Entries Value} {amendment : Amendment}
    (asked : propertiesAmendment ruleOf type stepId entries = .ok amendment) :
    (noteAll amendment.notes).WarnsIn steps := by
  change ∀ note ∈ amendment.notes, note.WarnsIn _
  unfold propertiesAmendment at asked
  split at asked
  · rename_i rule properties chosen found
    exact warn _ rule chosen _ _ asked
  · cases asked
    exact nofun

theorem warnsIn_walkValues {visit : Scalar → Value → Logged Fault Value}
    {entries : List (Scalar × Value)}
    (each : ∀ entry ∈ entries, (visit entry.1 entry.2).WarnsIn steps) :
    (walkValues visit entries).WarnsIn steps := by
  induction entries with
  | nil => exact .pure _
  | cons entry rest ih =>
      obtain ⟨first, others⟩ := List.forall_mem_cons.mp each
      exact .bind first fun _ _ => .bind (ih others) fun _ _ => .pure _

theorem warnsIn_walkItems {visit : Value → Logged Fault Value} {items : List Value}
    (each : ∀ item ∈ items, (visit item).WarnsIn steps) : (walkItems visit items).WarnsIn steps := by
  induction items with
  | nil => exact .pure _
  | cons item rest ih =>
      obtain ⟨first, others⟩ := List.forall_mem_cons.mp each
      exact .bind first fun _ _ => .bind (ih others) fun _ _ => .pure _

theorem warnsIn_ask {rule : FallibleRule} (warns : rule.WarnsInStep) (stepId : String)
    (entries : Entries Value) : (ask (rule stepId) entries).WarnsIn (· = stepId) := by
  refine .bind (.of_nil rfl) fun amendment asked => ?_
  have noted : (noteAll amendment.notes).WarnsIn (· = stepId) := warns stepId _ amendment asked
  exact .bind noted fun _ _ => .pure _

theorem warnsIn_everyObject {rule : FallibleRule} (warns : rule.WarnsInStep) (stepId : String)
    (value : Value) : (everyObject (rule stepId) value).WarnsIn (· = stepId) := by
  induction value using Value.induction with
  | scalar scalar => exact .pure _
  | array items ih =>
      rw [everyObject, everyObjectItems_eq]
      exact .bind (warnsIn_walkItems ih) fun _ _ => .pure _
  | object entries ih =>
      rw [everyObject, everyObjectEntries_eq]
      exact .bind (warnsIn_ask warns stepId entries) fun _ _ =>
        .bind (warnsIn_walkValues ih) fun _ _ => .pure _

theorem warnsIn_thisObject {rule : FallibleRule} (warns : rule.WarnsInStep) (stepId : String)
    (value : Value) : (thisObject (rule stepId) value).WarnsIn (· = stepId) := by
  cases value with
  | scalar scalar => exact .pure _
  | array items => exact .pure _
  | object entries => exact .bind (warnsIn_ask warns stepId entries) fun _ _ => .pure _

theorem warnsIn_changeChildren {change : Value → Logged Fault Value}
    (each : ∀ child, (change child).WarnsIn steps) (value : Value) :
    (changeChildren change value).WarnsIn steps := by
  cases value with
  | scalar scalar => exact .pure _
  | array items => exact .bind (warnsIn_walkItems fun item _ => each item) fun _ _ => .pure _
  | object entries =>
      exact .bind (warnsIn_walkValues fun entry _ => each entry.2) fun _ _ => .pure _

/-- A walk over elements warns of nothing but what the rules warn of. -/
theorem warnsIn_walk
    (warn : ∀ elementType rule, ruleOf elementType = some rule → ∀ entries amendment,
      rule stepId entries = .ok amendment → ∀ note ∈ amendment.notes, note.WarnsIn steps)
    (value : Value) :
    (element ruleOf stepId value).WarnsIn steps ∧
      (elements ruleOf stepId value).WarnsIn steps := by
  induction value using Value.induction with
  | scalar scalar => exact ⟨.pure _, .pure _⟩
  | array items ih =>
      rw [elements, elementItems_eq]
      exact ⟨.pure _, .bind (warnsIn_walkItems fun item member => (ih item member).1)
        fun _ _ => .pure _⟩
  | object entries ih =>
      constructor
      · rw [element, elementEntries_eq]
        refine .bind (.of_nil rfl) fun visit _ => ?_
        refine .bind (.note (warnsIn_note stepId visit)) fun _ _ => ?_
        refine .bind (.of_nil rfl) fun amendment asked => ?_
        refine .bind (warnsIn_propertiesAmendment warn asked) fun _ _ => ?_
        refine .bind (warnsIn_walkValues fun entry member => ?_) fun _ _ => .pure _
        unfold walkEntry
        split
        · exact (ih entry member).2
        · exact .pure _
      · rw [elements, elementValues_eq]
        exact .bind (warnsIn_walkValues fun entry member => (ih entry member).1) fun _ _ => .pure _

theorem warnsIn_overElements {change : Value → Logged Fault Value}
    (each : ∀ found, (change found).WarnsIn steps) (document : Value) :
    (overElements fields change document).WarnsIn steps := by
  rw [overElements_eq]
  split
  · exact .pure _
  · exact .bind (each _) fun _ _ => .pure _

theorem warnsIn_overOperations {change : List Value → Logged Fault (List Value)}
    (each : ∀ items, (change items).WarnsIn steps) (document : Value) :
    (overOperations fields change document).WarnsIn steps := by
  unfold overOperations
  split
  · split
    · exact .pure _
    · exact .pure _
    · split
      · exact .pure _
      · exact .pure _
      · exact .bind (each _) fun _ _ => .pure _
      · exact .of_nil rfl
    · exact .of_nil rfl
  · exact .of_nil rfl

/-- A treatment warns in the step that it is carried out in. -/
theorem warnsIn_onTree (fields : FieldNames) (stepId : String) {treatment : Treatment}
    (warns : treatment.WarnsInStep) (document : Value) :
    (onTree fields stepId treatment document).WarnsIn (· = stepId) := by
  cases treatment with
  | promote => exact .of_nil rfl
  | everyObject rule => exact warnsIn_everyObject warns stepId document
  | eachElement rule =>
      exact warnsIn_overElements (fun found =>
        warnsIn_changeChildren (warnsIn_thisObject warns stepId) found) document
  | elementProperties ruleOf =>
      have warn (elementType : String) (rule : FallibleRule)
          (chosen : ruleOf elementType = some rule) := warns elementType rule chosen stepId
      exact warnsIn_overElements (fun found => (warnsIn_walk warn found).2) document
  | eachOperation rule =>
      exact warnsIn_overOperations (fun items =>
        warnsIn_walkItems fun item _ => warnsIn_thisObject warns stepId item) document

end Rewrite

/-- The step of a blueprint warns under its own identifier. -/
theorem Blueprint.warnsIn_apply (fields : FieldNames) {blueprint : Blueprint}
    (warn : ∀ treatment ∈ blueprint.treatments, treatment.WarnsInStep) (context : Context)
    (document : Value) :
    ((blueprint.toStep (Rewrite.onTree fields)).apply context document).WarnsIn
      (· = blueprint.stepId) := by
  change Logged.WarnsIn _ (blueprint.treatments.foldlM _ document)
  generalize blueprint.treatments = treatments at warn ⊢
  induction treatments generalizing document with
  | nil => exact .pure _
  | cons treatment rest ih =>
      obtain ⟨first, others⟩ := List.forall_mem_cons.mp warn
      rw [List.foldlM_cons]
      exact .bind (Rewrite.warnsIn_onTree fields _ first document) fun treated _ => ih treated others

end Uplift
