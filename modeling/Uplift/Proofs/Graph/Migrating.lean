import Uplift.Import
import Uplift.Proofs.Engine.Assembly
import Uplift.Proofs.Engine.Phases
import Uplift.Proofs.Graph.Treating

/-!
# Migrations of graphs that share no part

An import migrates a document that is held as a graph. If the graph shares no part then all goes as in
the migration of its tree, step by step: the same versions are applied, the same notes are made, and
what is delivered stands for the migrated tree.
-/

set_option autoImplicit false

namespace Uplift

open Logged (Parallel)

/-- The treatments of the families do the same from the root down. -/
theorem Family.fromRoot_treatments {family : Family} {blueprint : Blueprint} {treatment : Treatment}
    (known : blueprint ∈ family.blueprints) (member : treatment ∈ blueprint.treatments) :
    treatment.FromRoot :=
  forall_treatments trivial
    (fun stepId _ _ distinct within => Rewrite.topDown_renameField _ _ stepId distinct within)
    (fun stepId _ _ distinct within => Rewrite.topDown_fillBlank _ stepId _ distinct within)
    trivial trivial trivial trivial known member

variable {graph : Graph} {value : Value}

/-- A step of a family does to a graph that shares no part what it does to the tree. -/
theorem Family.parallel_step {family : Family} {blueprint : Blueprint}
    (known : blueprint ∈ family.blueprints) (fields : FieldNames) (context : Context)
    (stands : graph.StandsFor value) :
    Parallel Graph.StandsFor ((blueprint.toStep (Rewrite.onGraph fields)).apply context graph)
      ((blueprint.toStep (Rewrite.onTree fields)).apply context value) := by
  have run : ∀ treatments : List Treatment, (∀ treatment ∈ treatments,
      treatment ∈ blueprint.treatments) → ∀ (graph : Graph) (value : Value), graph.StandsFor value →
        Parallel Graph.StandsFor
          (treatments.foldlM (fun current treatment =>
            Rewrite.onGraph fields blueprint.stepId treatment current) graph)
          (treatments.foldlM (fun current treatment =>
            Rewrite.onTree fields blueprint.stepId treatment current) value) := by
    intro treatments members
    induction treatments with
    | nil => exact fun graph value stands => .pure stands
    | cons treatment rest ih =>
        intro graph value stands
        obtain ⟨first, later⟩ := List.forall_mem_cons.mp members
        rw [List.foldlM_cons, List.foldlM_cons]
        refine (stands.parallel_treatment (Family.byName_treatments known first)
          (Family.fromRoot_treatments known first)).bind fun reached treated _ still => ?_
        exact ih later reached treated still
  exact run blueprint.treatments (fun _ => id) graph value stands

/-!
## The marker
-/

/-- To write the marker into an object is to amend it in its place. -/
private theorem Graph.exists_marked {index : Nat} {entries : Entries Placed}
    {keyNodes : List (Scalar × Nat)} (fields : FieldNames) (text : String)
    (holds : graph.Holds (.object index entries keyNodes))
    (sound : (Placed.object index entries keyNodes).Sound) :
    ∃ marked : Entries Placed,
      marked.mapValues Placed.value =
        Entries.put (.text fields.migrations) (.text text) (entries.mapValues Placed.value) ∧
      graph.Turns
        (graph.setEntries index ((entries.mapValues Placed.cell).put (.text fields.migrations)
          (.scalar (.text text))))
        (.object index entries keyNodes) (.object index marked keyNodes) := by
  have plain : (Amendment.ofEdits [.set fields.migrations (.text text)]).Plain :=
    Amendment.plain_of_set (.scalar _)
  exact Graph.exists_amend plain holds sound

theorem Graph.StandsFor.mark (stands : graph.StandsFor value) (fields : FieldNames) (text : String) :
    (graph.mark fields text).StandsFor (Marker.put fields text value) := by
  obtain ⟨placed, rfl, isRoot, holds, sound⟩ := stands
  rcases placed.object_or_not with ⟨index, entries, keyNodes, rfl⟩ | other
  · have object := holds.object?_object
    rw [Placed.cell] at isRoot
    rw [isRoot] at object
    have inRoot : (graph.setEntries index ((Entries.mapValues Placed.cell entries).put
        (.text fields.migrations) (.scalar (.text text)))).StandsFor
          (.object (Entries.put (.text fields.migrations) (.text text)
            (Entries.mapValues Placed.value entries))) := by
      obtain ⟨marked, same, turns⟩ := Graph.exists_marked fields text holds sound
      rw [← same]
      exact Graph.TurnsInto.standsFor ⟨_, turns, Placed.value_object⟩ isRoot
    rw [Graph.mark, object, Placed.value_object, Marker.put, Entries.lookup_mapValues]
    dsimp only
    rw [Entries.lookup_mapValues]
    cases located : Entries.lookup (.text fields.content) entries with
    | none => exact inRoot
    | some content =>
        have held := holds.of_lookup located
        rw [Option.map_some, Option.map_some, Option.bind_some]
        rcases content.object_or_not with ⟨place, inner, innerKeys, rfl⟩ | noObject
        · obtain ⟨marked, same, turns⟩ :=
            Graph.exists_marked fields text held (sound.of_lookup located)
          rw [Placed.cell, held.object?_object, Placed.value_object]
          dsimp only
          rw [← same, ← Placed.value_object, ← Entries.put_mapValues, ← Placed.value_object]
          exact Graph.TurnsInto.standsFor ⟨_, turns.entry located holds sound, rfl⟩ isRoot
        · rw [held.object?_none noObject]
          exact Value.of_not_object (fun _ => inRoot) (fun _ => inRoot) content.value noObject
  · have absent := holds.object?_none other
    rw [isRoot] at absent
    have unmarked : Marker.put fields text placed.value = placed.value :=
      Value.of_not_object (fun _ => rfl) (fun _ => rfl) placed.value other
    rw [Graph.mark, absent, unmarked]
    exact ⟨placed, rfl, isRoot, holds, sound⟩

namespace Engine

variable {settings : Settings} {family : Family} {context : Context} {blueprint : Blueprint}

/-- The engine of a family on documents that are held as graphs. -/
abbrev ofGraphs (settings : Settings) (family : Family) : Engine Graph :=
  family.engine Rewrite.onGraph settings

theorem outstanding_family {δ : Type}
    (carryOut : FieldNames → String → Treatment → δ → Logged Fault δ) (settings : Settings)
    (family : Family) (declaration : Declaration) :
    Plan.outstanding (family.engine carryOut settings).registry declaration =
      (family.blueprints.filter fun blueprint => !declaration.contains blueprint.version).map
        fun blueprint =>
          (blueprint.version, blueprint.toStep (carryOut (settings.fieldsFor family.name))) := by
  have ordered : (family.engine carryOut settings).registry.ordered =
      family.blueprints.map fun blueprint =>
        (blueprint.version, blueprint.toStep (carryOut (settings.fieldsFor family.name))) := by
    cases family <;> rfl
  rw [Plan.outstanding, ordered, List.filter_map]
  rfl

theorem lacking_eq (settings : Settings) (family : Family) (declaration : Declaration) :
    (ofGraphs settings family).lacking declaration =
      (ofTrees settings family).lacking declaration := by
  rw [lacking, lacking, outstanding_family, outstanding_family, List.map_map, List.map_map]
  rfl

theorem versions_eq (settings : Settings) (family : Family) :
    (ofGraphs settings family).registry.versions = (ofTrees settings family).registry.versions := by
  cases family <;> rfl

theorem guard_eq (settings : Settings) (family : Family) (subject : Subject)
    (declaration : Declaration) :
    (ofGraphs settings family).guard subject declaration =
      (ofTrees settings family).guard subject declaration := by
  have latest : (ofGraphs settings family).registry.latest? =
      (ofTrees settings family).registry.latest? := by
    rw [Registry.latest?, Registry.latest?, versions_eq]
  have unknown : Plan.unknown (ofGraphs settings family).registry declaration =
      Plan.unknown (ofTrees settings family).registry declaration := by
    unfold Plan.unknown
    rw [latest]
  have flag : (ofGraphs settings family).rejectNewer = (ofTrees settings family).rejectNewer := rfl
  have name : (ofGraphs settings family).family = (ofTrees settings family).family := rfl
  rw [guard, guard, unknown, latest, flag, name]

theorem versionId_eq (settings : Settings) (family : Family) (version : Int) :
    (ofGraphs settings family).versionId version = (ofTrees settings family).versionId version := by
  have name : (ofGraphs settings family).family = (ofTrees settings family).family := rfl
  unfold versionId
  rw [name]

/-!
## The phases of a migration
-/

theorem parallel_applyStep (known : blueprint ∈ family.blueprints) (fields : FieldNames)
    (stands : graph.StandsFor value) :
    Parallel Graph.StandsFor
      (applyStep context (blueprint.toStep (Rewrite.onGraph fields)) graph)
      (applyStep context (blueprint.toStep (Rewrite.onTree fields)) value) := by
  refine (Family.parallel_step known fields context stands).bind fun migrated treated _ still => ?_
  have tree : Representation.tree migrated = treated := still.tree_eq
  rw [tree, Representation.tree_value]
  cases treated with
  | scalar scalar => exact .error
  | array items => exact .error
  | object entries => exact .pure still

theorem parallel_perform (known : blueprint ∈ family.blueprints) (fields : FieldNames)
    (stands : graph.StandsFor value) :
    Parallel Graph.StandsFor
      ((ofGraphs settings family).perform context blueprint.version
        (blueprint.toStep (Rewrite.onGraph fields)) graph)
      ((ofTrees settings family).perform context blueprint.version
        (blueprint.toStep (Rewrite.onTree fields)) value) := by
  have parallel : Parallel Graph.StandsFor
      (applyStep context (blueprint.toStep (Rewrite.onGraph fields)) graph)
      (applyStep context (blueprint.toStep (Rewrite.onTree fields)) value) :=
    parallel_applyStep known fields stands
  have name : (ofGraphs settings family).family = (ofTrees settings family).family := rfl
  unfold perform
  rw [versionId_eq, name]
  cases (ofTrees settings family).versionId blueprint.version with
  | error fault => exact .error
  | ok sid =>
      dsimp only
      generalize
        applyStep context (blueprint.toStep (Rewrite.onGraph fields)) graph = action at parallel
      generalize
        applyStep context (blueprint.toStep (Rewrite.onTree fields)) value = other at parallel
      cases parallel with
      | ok still => exact .ok still
      | error => exact .error

theorem parallel_performAll (plan : List Blueprint) (known : ∀ blueprint ∈ plan,
    blueprint ∈ family.blueprints) (fields : FieldNames) (stands : graph.StandsFor value) :
    Parallel Graph.StandsFor
      ((ofGraphs settings family).performAll context
        (plan.map fun blueprint => (blueprint.version, blueprint.toStep (Rewrite.onGraph fields)))
        graph)
      ((ofTrees settings family).performAll context
        (plan.map fun blueprint => (blueprint.version, blueprint.toStep (Rewrite.onTree fields)))
        value) := by
  induction plan generalizing graph value with
  | nil => exact .pure stands
  | cons blueprint rest ih =>
      obtain ⟨first, later⟩ := List.forall_mem_cons.mp known
      exact (parallel_perform first fields stands).bind fun _ _ _ still => ih later still

theorem parallel_execution (declaration : Declaration) (stands : graph.StandsFor value) :
    Parallel Graph.StandsFor
      ((ofGraphs settings family).performAll context
        (Plan.outstanding (ofGraphs settings family).registry declaration) graph)
      ((ofTrees settings family).performAll context
        (Plan.outstanding (ofTrees settings family).registry declaration) value) := by
  rw [outstanding_family, outstanding_family]
  exact parallel_performAll _ (fun _ member => List.mem_of_mem_filter member) _ stands

theorem digestOf_standsFor (stands : graph.StandsFor value) : digestOf graph = digestOf value := by
  have tree : Representation.tree graph = value := stands.tree_eq
  rw [digestOf, digestOf, tree, Representation.tree_value]

theorem parallel_stamp (declaration : Declaration) (applied : List Int)
    (stands : graph.StandsFor value) :
    Parallel Graph.StandsFor
      (.ofExcept (((ofGraphs settings family).stamp declaration applied graph).mapError
        Failure.untyped))
      (.ofExcept (((ofTrees settings family).stamp declaration applied value).mapError
        Failure.untyped)) := by
  have flag : (ofGraphs settings family).stampVersions =
      (ofTrees settings family).stampVersions := rfl
  rw [stamp, stamp, flag, versions_eq settings family]
  by_cases marked : ((ofTrees settings family).stampVersions && !applied.isEmpty) = true
  · rw [if_pos marked, if_pos marked]
    cases Listing.written
        (declaration.restrictedTo (ofTrees settings family).registry.versions ++ applied) with
    | error fault => exact .error
    | ok text => exact .ok (stands.mark _ text)
  · rw [if_neg marked, if_neg marked]
    exact .ok stands

end Engine

/-- A result on a document that is held as a graph says what one on a tree says. -/
structure MigrationResult.StandsFor (result : MigrationResult Graph) (other : MigrationResult Value) :
    Prop where
  family : result.family = other.family
  document : result.document.StandsFor other.document
  applied : result.applied = other.applied
  satisfied : result.satisfied = other.satisfied
  inputDigest : result.inputDigest = other.inputDigest
  outputDigest : result.outputDigest = other.outputDigest

namespace Engine

variable {settings : Settings} {family : Family}

/-- A graph that shares no part is migrated as its tree is: with the same notes, to a result that says
the same of a document that stands for the migrated tree, or with the same failure. -/
theorem parallel_migrate (settings : Settings) (family : Family) (stands : graph.StandsFor value) :
    Parallel MigrationResult.StandsFor ((ofGraphs settings family).migrate graph)
      ((ofTrees settings family).migrate value) := by
  have tree : Representation.tree graph = value := stands.tree_eq
  cases root : value.isObject with
  | false =>
      have rootGraph : (Representation.tree graph).isObject = false := by rw [tree, root]
      rw [migrate_of_not_isObject rootGraph, migrate_of_not_isObject root, tree]
      exact .error
  | true =>
      have rootGraph : (Representation.tree graph).isObject = true := by rw [tree, root]
      have context : (ofGraphs settings family).contextOf value =
          (ofTrees settings family).contextOf value := by
        cases value <;> rfl
      have same : (ofGraphs settings family).family = (ofTrees settings family).family ∧
          (ofGraphs settings family).strategies = (ofTrees settings family).strategies := ⟨rfl, rfl⟩
      rw [migrate_of_isObject rootGraph, migrate_of_isObject root, digestOf_standsFor stands, tree,
        Representation.tree_value, context, same.1, same.2]
      simp only [guard_eq, versions_eq, lacking_eq]
      -- Up to the plan both runs do the same; from then on the graph stands for the tree.
      refine .bind_same _ fun inputDigest _ => ?_
      refine .bind_same _ fun satisfied _ => ?_
      refine .bind_same _ fun _ _ => ?_
      refine .bind_same _ fun _ _ => ?_
      refine (parallel_execution satisfied.declaration stands).bind fun _ _ _ migrated => ?_
      refine (parallel_stamp satisfied.declaration _ migrated).bind fun _ _ _ stamped => ?_
      refine .bind_same _ fun _ _ => ?_
      rw [digestOf_standsFor stamped]
      exact .bind_same _ fun outputDigest _ => .pure ⟨rfl, stamped, rfl, rfl, rfl, rfl⟩

end Engine

/-!
## Imports
-/

/-- The graph of a tree shares no part of it. -/
theorem Graph.standsFor_ofTree (distinct : value.DistinctKeys) :
    (Graph.ofTree value).StandsFor value := by
  obtain ⟨placed, same, cell, yields⟩ := adds_addTree distinct ⟨#[], .scalar .null⟩
  have holds : (Graph.ofTree value).Holds placed :=
    (yields.holds placed (.head _)).of_same fun _ _ => rfl
  exact ⟨placed, same, cell.symm, holds, yields.sound.sound placed (.head _)⟩

/-- An import of a document that shares no part ends as the migration of its tree does. -/
theorem Import.migrate_standsFor (settings : Settings) (family : Family)
    (stands : graph.StandsFor value) :
    match ((Engine.ofTrees settings family).migrate value).outcome with
    | .error failure => migrate settings family.name graph = .error (.failed failure)
    | .ok result => ∃ imported, imported.StandsFor result ∧
        migrate settings family.name graph =
          .ok ⟨(Engine.ofTrees settings family).contextOf value,
            ((Engine.ofTrees settings family).migrate value).notes, imported⟩ := by
  have known : Family.ofName? family.name = some family := by
    cases family <;> rfl
  have context : (Engine.ofGraphs settings family).contextOf graph.tree =
      (Engine.ofTrees settings family).contextOf value := by
    rw [stands.tree_eq]
    cases value <;> rfl
  have parallel := Engine.parallel_migrate settings family stands
  rw [migrate, known]
  dsimp only
  rw [context]
  generalize (Engine.ofGraphs settings family).migrate graph = action at parallel
  generalize (Engine.ofTrees settings family).migrate value = other at parallel
  cases parallel with
  | error => rfl
  | ok same => exact ⟨_, same, rfl⟩

end Uplift
