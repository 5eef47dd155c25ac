import Mathlib.Data.List.Nodup
import Uplift.Family
import Uplift.Proofs.Digits
import Uplift.Proofs.Rewrite.Writable

/-!
# The steps of the families

The steps of the known families set nothing but texts, empty objects, and integers of which the
digits were read. So they keep documents writable, and their versions have few digits.
-/

set_option autoImplicit false

namespace Uplift

namespace Chain

/-- What holds of each rule that version 102 has for some type holds of the rule of any type. -/
theorem forall_propertyRules102 {holds : FallibleRule → Prop} {elementType : String}
    {rule : FallibleRule}
    (schema : holds (.dropIfEmpty "asyncValidationSchema"))
    (handling : holds (Rule.fallible settleFailureHandling)) (priority : holds readPriority)
    (before : holds (.dropIfEmpty "before"))
    (chosen : propertyRules102 elementType = some rule) : holds rule := by
  unfold propertyRules102 at chosen
  split at chosen
  · cases chosen
    exact schema
  · split at chosen
    · cases chosen
      exact handling
    · split at chosen
      · cases chosen
        exact priority
      · split at chosen
        · cases chosen
          exact before
        · cases chosen

theorem forall_propertyRules103 {holds : FallibleRule → Prop} {elementType : String}
    {rule : FallibleRule}
    (iteration : holds (.dropIfBlank "maxLoopIteration"))
    (backoff : holds (.dropIfBlank "reconnectBackoffMaxMs"))
    (chosen : propertyRules103 elementType = some rule) : holds rule := by
  unfold propertyRules103 at chosen
  split at chosen
  · cases chosen
    exact iteration
  · split at chosen
    · cases chosen
      exact backoff
    · cases chosen

theorem writable_settleFailureHandling : Rule.Writable settleFailureHandling := by
  intro stepId entries
  unfold settleFailureHandling
  split
  · exact Amendment.writable_none
  · split
    · intro field value member
      cases List.mem_singleton.mp member
      rfl
    · intro field value member
      rcases List.mem_cons.mp member with action | container
      · cases action
        rfl
      · cases List.mem_singleton.mp container
        rfl

theorem writable_readPriority : FallibleRule.Writable readPriority := by
  intro stepId entries amendment result
  unfold readPriority at result
  split at result
  · rename_i written _
    split at result
    · rename_i run
      cases priority : Digits.readSigned written.toList with
      | error fault =>
          rw [priority] at result
          cases result
      | ok number =>
          rw [priority] at result
          cases result
          intro field value member
          cases List.mem_singleton.mp member
          rw [Value.isWritable_scalar]
          exact Digits.isWritable_of_readSigned run priority
    · cases result
      exact Amendment.writable_warn _ _
  · cases result
    exact Amendment.writable_none

theorem writable_propertyRules102 : PropertyRules.Writable propertyRules102 :=
  fun _ _ chosen => forall_propertyRules102 (FallibleRule.writable_drop _ _)
    writable_settleFailureHandling.fallible writable_readPriority
    (FallibleRule.writable_drop _ _) chosen

theorem writable_propertyRules103 : PropertyRules.Writable propertyRules103 :=
  fun _ _ chosen => forall_propertyRules103 (FallibleRule.writable_drop _ _)
    (FallibleRule.writable_drop _ _) chosen

end Chain

/-- What is asked for on an operation is nothing, or the name that is made for it. -/
theorem Service.edits_nameOperation {stepId : String} {operation : Entries Outline}
    {amendment : Amendment} (asked : nameOperation stepId operation = .ok amendment) :
    amendment = .none ∨ ∃ name, operationName operation = .ok name ∧ name.isEmpty = false ∧
      amendment.edits = [.set "name" (.text name)] := by
  unfold nameOperation at asked
  obtain ⟨given, _, naming⟩ := Outcome.bind_eq_ok_iff.mp asked
  split at naming
  · cases naming
    exact .inl rfl
  · obtain ⟨name, named, made⟩ := Outcome.bind_eq_ok_iff.mp naming
    split at made
    · cases made
      exact .inl rfl
    · rename_i filled
      obtain ⟨operationId, _, same⟩ := Outcome.bind_eq_ok_iff.mp made
      cases same
      exact .inr ⟨name, named, by simpa using filled, rfl⟩

theorem Service.writable_nameOperation : FallibleRule.Writable Service.nameOperation := by
  intro stepId operation amendment asked field value member
  rcases edits_nameOperation asked with rfl | ⟨name, _, _, same⟩
  · cases member
  · rw [same] at member
    cases List.mem_singleton.mp member
    rfl

namespace Family

/-- What holds of each treatment that the families have holds of any of them. -/
theorem forall_treatments {holds : Treatment → Prop} {family : Family} {blueprint : Blueprint}
    {treatment : Treatment} (promoting : holds .promote)
    (filename : holds
      (.everyObject (Rule.renameField "properties-filename" "propertiesFilename").fallible))
    (serializer : holds
      (.everyObject (.fillBlank "keySerializer" (.text Chain.standardKeySerializer))))
    (type : holds (.eachElement (Rule.renameField "element-type" "type").fallible))
    (properties102 : holds (.elementProperties Chain.propertyRules102))
    (properties103 : holds (.elementProperties Chain.propertyRules103))
    (naming : holds (.eachOperation Service.nameOperation))
    (known : blueprint ∈ family.blueprints) (member : treatment ∈ blueprint.treatments) :
    holds treatment := by
  cases family with
  | chain =>
      simp only [blueprints, Chain.blueprints, List.mem_cons, List.not_mem_nil, or_false] at known
      rcases known with rfl | rfl | rfl
      · simp only [Chain.v101, List.mem_cons, List.not_mem_nil, or_false] at member
        rcases member with rfl | rfl | rfl | rfl
        · exact promoting
        · exact filename
        · exact serializer
        · exact type
      · cases List.mem_singleton.mp member
        exact properties102
      · cases List.mem_singleton.mp member
        exact properties103
  | service =>
      simp only [blueprints, Service.blueprints, List.mem_cons, List.not_mem_nil, or_false] at known
      rcases known with rfl | rfl
      · cases List.mem_singleton.mp member
        exact promoting
      · cases List.mem_singleton.mp member
        exact naming

theorem writable_treatments (family : Family) {blueprint : Blueprint} {treatment : Treatment}
    (known : blueprint ∈ family.blueprints) (member : treatment ∈ blueprint.treatments) :
    treatment.Writable :=
  forall_treatments trivial (Rule.writable_renameField _ _).fallible
    (FallibleRule.writable_editIf (fun _ _ same => by cases same; rfl) _)
    (Rule.writable_renameField _ _).fallible Chain.writable_propertyRules102
    Chain.writable_propertyRules103 Service.writable_nameOperation known member

theorem exists_blueprint_of_step? {δ : Type}
    {carryOut : FieldNames → String → Treatment → δ → Logged Fault δ} {settings : Settings}
    {family : Family} {version : Int} {step : Step δ}
    (registered : (family.engine carryOut settings).registry.step? version = some step) :
    ∃ blueprint ∈ family.blueprints, version = blueprint.version ∧
      step = blueprint.toStep (carryOut (settings.fieldsFor family.name)) := by
  obtain ⟨entry, found, rfl⟩ := Option.map_eq_some_iff.mp registered
  have same := List.find?_some found
  obtain ⟨blueprint, known, rfl⟩ := List.mem_map.mp (List.mem_of_find?_eq_some found)
  exact ⟨blueprint, known, (of_decide_eq_true same).symm, rfl⟩

/-- A version of a family belongs to one blueprint. -/
theorem eq_of_version_eq {family : Family} {blueprint other : Blueprint}
    (known : blueprint ∈ family.blueprints) (otherKnown : other ∈ family.blueprints)
    (same : blueprint.version = other.version) : blueprint = other := by
  have distinct : (family.blueprints.map (·.version)).Nodup := by
    cases family <;> decide
  exact List.inj_on_of_nodup_map distinct known otherKnown same

theorem isWritable_version (family : Family) {blueprint : Blueprint}
    (known : blueprint ∈ family.blueprints) :
    Scalar.isWritable (.int blueprint.version) = true := by
  have small : ∀ blueprint ∈ family.blueprints, blueprint.version.natAbs < tenTo 3 := by
    cases family <;> decide
  exact Digits.isWritable_of_lt_tenTo (by decide) (small blueprint known)

end Family

private theorem isWritable_of_foldlM {fields : FieldNames} {stepId : String}
    {treatments : List Treatment} (own : ∀ treatment ∈ treatments, treatment.Writable)
    {document migrated : Value}
    (applied : (treatments.foldlM (fun current treatment =>
      Rewrite.onTree fields stepId treatment current) document).outcome = .ok migrated)
    (writable : document.isWritable = true) : migrated.isWritable = true := by
  induction treatments generalizing document with
  | nil =>
      cases applied
      exact writable
  | cons treatment rest ih =>
      rw [List.foldlM_cons] at applied
      obtain ⟨treated, treating, others⟩ := Logged.bind_outcome_ok.mp applied
      have treatedWritable := Rewrite.isWritable_onTree (own treatment (.head _)) treating writable
      exact ih (fun later member => own later (.tail _ member)) others treatedWritable

/-- The step of a blueprint makes a document that can be written from one that can. -/
theorem Blueprint.isWritable_of_apply {fields : FieldNames} {blueprint : Blueprint}
    (own : ∀ treatment ∈ blueprint.treatments, treatment.Writable) {context : Context}
    {document migrated : Value}
    (applied : ((blueprint.toStep (Rewrite.onTree fields)).apply context document).outcome =
      .ok migrated)
    (writable : document.isWritable = true) : migrated.isWritable = true :=
  isWritable_of_foldlM own applied writable

end Uplift
