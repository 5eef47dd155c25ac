import Uplift.Proofs.Engine.Assembly
import Uplift.Proofs.Engine.Execution
import Uplift.Proofs.Family
import Uplift.Proofs.Plan

/-!
# Plans of the known families

The steps of a plan are those of the family, and so its versions are short and its steps keep
documents writable.
-/

set_option autoImplicit false

namespace Uplift

def Step.KeepsWritable (step : Step Value) : Prop :=
  ∀ context before after, step.Gives context before after → before.isWritable = true →
    after.isWritable = true

theorem Plan.Runs.isWritable {context : Context} {plan : List (Int × Step Value)}
    {document last : Value} (runs : Plan.Runs context plan document last)
    (keeps : ∀ entry ∈ plan, entry.2.KeepsWritable) (writable : document.isWritable = true) :
    last.isWritable = true :=
  runs.preserves (fun reached => reached.isWritable = true)
    (fun entry planned before after => keeps entry planned _ before after) writable

namespace Engine

variable {settings : Settings} {family : Family} {declaration : Declaration}

theorem exists_blueprint_of_planned {entry : Int × Step Value}
    (planned : entry ∈ Plan.outstanding (ofTrees settings family).registry declaration) :
    ∃ blueprint ∈ family.blueprints, entry =
      (blueprint.version,
        blueprint.toStep (Rewrite.onTree (settings.fieldsFor family.name))) := by
  obtain ⟨blueprint, known, version, step⟩ :=
    Family.exists_blueprint_of_step? (Plan.step?_of_mem_outstanding planned)
  exact ⟨blueprint, known, Prod.ext version step⟩

theorem keepsWritable_of_planned {entry : Int × Step Value}
    (planned : entry ∈ Plan.outstanding (ofTrees settings family).registry declaration) :
    entry.2.KeepsWritable := by
  obtain ⟨blueprint, known, rfl⟩ := exists_blueprint_of_planned planned
  intro context before after gives writable
  exact Blueprint.isWritable_of_apply (fun _ member => family.writable_treatments known member)
    gives.1 writable

theorem isWritable_registered {version : Int}
    (registered : version ∈ (ofTrees settings family).registry.versions) :
    Scalar.isWritable (.int version) = true := by
  obtain ⟨step, found⟩ := Registry.exists_step_of_mem_versions registered
  obtain ⟨blueprint, known, rfl, _⟩ := Family.exists_blueprint_of_step? found
  exact family.isWritable_version known

end Engine

end Uplift
