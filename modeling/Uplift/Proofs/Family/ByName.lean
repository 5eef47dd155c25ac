import Uplift.Proofs.Family
import Uplift.Proofs.Rewrite.ByName

/-!
# The rules of the families look fields up by their names

No rule of the known families depends on the order in which the entries of an object stand, and
what the rules set are scalars and empty objects.
-/

set_option autoImplicit false

namespace Uplift

open Value (Alike)

theorem Amendment.plain_of_no_set {amendment : Amendment}
    (unset : ∀ field value, Edit.set field value ∉ amendment.edits) : amendment.Plain :=
  fun field value member => absurd member (unset field value)

theorem Amendment.plain_of_set {field : String} {value : Value} (plain : Alike value value) :
    (ofEdits [.set field value]).Plain := by
  intro other set member
  cases List.mem_singleton.mp member
  exact plain

theorem FallibleRule.ByName.of_rule {rule : Rule}
    (same : ∀ stepId (one other : Entries Outline),
      (∀ name, one.lookup (.text name) = other.lookup (.text name)) →
        rule stepId one = rule stepId other)
    (plain : ∀ stepId entries, (rule stepId entries).Plain) : (Rule.fallible rule).ByName where
  same stepId one other fields := congrArg Except.ok (same stepId one other fields)
  plain stepId entries amendment asked := by
    cases asked
    exact plain stepId entries

namespace Rule

theorem byName_renameField (old new : String) : (fallible (renameField old new)).ByName := by
  refine .of_rule (fun stepId one other fields => ?_) fun stepId entries => ?_
  · simp only [renameField, Entries.contains_eq_isSome_lookup, fields]
  · unfold renameField
    split
    · exact nofun
    · split
      · exact nofun
      · exact Amendment.plain_of_no_set (by simp [Amendment.ofEdits])

end Rule

/-- A conditional edit looks one field up, and what it may set has texts as keys. -/
theorem FallibleRule.byName_editIf {ask : Outline → Except Fault Bool} {edit : Edit Value}
    (own : ∀ field value, edit = .set field value → Alike value value) (field : String) :
    (editIf ask field edit).ByName where
  same stepId one other fields := by
    rw [editIf, editIf, fields]
  plain stepId entries amendment asked := by
    intro other value member
    unfold editIf at asked
    split at asked
    · cases asked
      cases member
    · obtain ⟨answer, _, rfl⟩ := Outcome.map_eq_ok_iff.mp asked
      cases answer with
      | false => cases member
      | true => exact own other value (List.mem_singleton.mp member).symm

theorem FallibleRule.byName_drop (ask : Outline → Except Fault Bool) (field : String) :
    (editIf ask field (.drop field)).ByName :=
  byName_editIf (fun _ _ same => by cases same) field

namespace Chain

theorem byName_settleFailureHandling : (Rule.fallible settleFailureHandling).ByName := by
  refine .of_rule (fun stepId one other fields => ?_) fun stepId entries => ?_
  · simp only [settleFailureHandling, Entries.contains_eq_isSome_lookup, fields]
  · unfold settleFailureHandling
    split
    · exact nofun
    · split
      · exact Amendment.plain_of_set (.scalar _)
      · intro field value member
        rcases List.mem_cons.mp member with action | container
        · cases action
          exact .scalar _
        · cases List.mem_singleton.mp container
          exact Alike.object_iff.mpr .nil

theorem byName_readPriority : readPriority.ByName where
  same stepId one other fields := by
    simp only [readPriority, fields]
  plain stepId entries amendment asked := by
    unfold readPriority at asked
    split at asked
    · rename_i written _
      split at asked
      · cases number : Digits.readSigned written.toList with
        | error fault =>
            rw [number] at asked
            cases asked
        | ok priority =>
            rw [number] at asked
            cases asked
            exact Amendment.plain_of_set (.scalar _)
      · cases asked
        exact nofun
    · cases asked
      exact nofun

theorem byName_propertyRules102 : PropertyRules.ByName propertyRules102 :=
  fun _ _ chosen => forall_propertyRules102 (FallibleRule.byName_drop _ _)
    byName_settleFailureHandling byName_readPriority (FallibleRule.byName_drop _ _) chosen

theorem byName_propertyRules103 : PropertyRules.ByName propertyRules103 :=
  fun _ _ chosen => forall_propertyRules103 (FallibleRule.byName_drop _ _)
    (FallibleRule.byName_drop _ _) chosen

end Chain

theorem Service.byName_nameOperation : FallibleRule.ByName nameOperation where
  same stepId one other fields := by
    have texts (field : String) : Outline.textAt field one = Outline.textAt field other := by
      rw [Outline.textAt, Outline.textAt, fields]
    simp only [nameOperation, operationName, texts]
  plain stepId operation amendment asked := by
    intro field value member
    rcases edits_nameOperation asked with rfl | ⟨name, _, _, same⟩
    · cases member
    · rw [same] at member
      cases List.mem_singleton.mp member
      exact .scalar _

/-- The treatments of the families are by rules that look fields up by their names. -/
theorem Family.byName_treatments {family : Family} {blueprint : Blueprint} {treatment : Treatment}
    (known : blueprint ∈ family.blueprints) (member : treatment ∈ blueprint.treatments) :
    treatment.ByName :=
  forall_treatments trivial (Rule.byName_renameField _ _)
    (FallibleRule.byName_editIf (fun _ _ same => by cases same; exact .scalar _) _)
    (Rule.byName_renameField _ _) Chain.byName_propertyRules102 Chain.byName_propertyRules103
    Service.byName_nameOperation known member

end Uplift
