import Uplift.Proofs.Digest.Alike
import Uplift.Proofs.Engine.Settled
import Uplift.Proofs.Family.ByName
import Uplift.Proofs.Journal.Warnings
import Uplift.Proofs.Rewrite.Alike
import Uplift.Proofs.Versions.Alike

/-!
# Migrations respect the order of entries

Two documents that differ in the order of their entries alone are migrated alike, phase by phase:
the same versions are applied, what is delivered differs in the order of entries alone, the digests
are the same, and so are the warnings of each step up to their order. If one of the migrations fails
then so does the other, with a failure of the same class.
-/

set_option autoImplicit false

namespace Uplift

open Value (Alike)

/-- A step does the same to alike documents, or fails on both. -/
def Step.RespectsOrder (step : Step Value) : Prop :=
  ∀ context document other, Alike document other →
    Rewrite.AgreeOnTrees (step.apply context document) (step.apply context other)

theorem Blueprint.respectsOrder {fields : FieldNames} {blueprint : Blueprint}
    (byName : ∀ treatment ∈ blueprint.treatments, treatment.ByName) :
    (blueprint.toStep (Rewrite.onTree fields)).RespectsOrder :=
  fun _ _ _ alike => Rewrite.agree_treatments byName _ alike

/-- Two results are the same up to the order of entries in the documents. -/
structure MigrationResult.Alike (result other : MigrationResult Value) : Prop where
  family : result.family = other.family
  document : Value.Alike result.document other.document
  applied : result.applied = other.applied
  satisfied : result.satisfied = other.satisfied
  inputDigest : result.inputDigest = other.inputDigest
  outputDigest : result.outputDigest = other.outputDigest

namespace Engine

abbrev AgreeOnDocuments (action other : Logged Failure Value) : Prop :=
  Logged.Agree Alike Failure.SameClass action other

variable {engine : Engine Value} {context : Context} {document other : Value}

theorem identity?_eq (field : String) (alike : Alike document other) :
    identity? field document = identity? field other := by
  unfold identity? Value.get?
  cases document with
  | scalar scalar =>
      cases alike
      rfl
  | array items =>
      obtain ⟨others, rfl, _⟩ := alike.exists_array
      rfl
  | object entries =>
      obtain ⟨others, rfl, same⟩ := alike.exists_object
      dsimp only
      rcases same.cases field with ⟨absent, otherAbsent⟩ | ⟨_, _, found, otherFound, pair⟩
      · rw [absent, otherAbsent]
      · rw [found, otherFound]
        dsimp only
        rw [pair.wording_eq]

theorem contextOf_eq (alike : Alike document other) :
    engine.contextOf document = engine.contextOf other := by
  have subject : subjectOf engine.fields document = subjectOf engine.fields other := by
    rw [subjectOf, subjectOf, identity?_eq _ alike, identity?_eq _ alike]
  cases document with
  | scalar scalar =>
      cases alike
      rfl
  | array items =>
      obtain ⟨others, rfl, _⟩ := alike.exists_array
      rfl
  | object entries =>
      obtain ⟨others, rfl, _⟩ := alike.exists_object
      rw [contextOf, contextOf, subject]

/-!
## Steps
-/

theorem agree_applyStep {step : Step Value} (respects : step.RespectsOrder)
    (alike : Alike document other) :
    Rewrite.AgreeOnTrees (applyStep context step document) (applyStep context step other) := by
  refine (respects context document other alike).bind fun migrated otherMigrated same => ?_
  cases migrated with
  | scalar scalar =>
      cases same
      exact .fail trivial
  | array items =>
      obtain ⟨others, rfl, _⟩ := same.exists_array
      exact .fail trivial
  | object entries =>
      obtain ⟨others, rfl, _⟩ := same.exists_object
      exact .pure same

/-- Whatever a step fails with, the engine fails with an error of one class. -/
theorem agree_perform {version : Int} {step : Step Value} (respects : step.RespectsOrder)
    (alike : Alike document other) :
    AgreeOnDocuments (engine.perform context version step document)
      (engine.perform context version step other) := by
  unfold perform
  cases engine.versionId version with
  | error fault => exact .fail rfl
  | ok sid =>
      have agree : Rewrite.AgreeOnTrees (applyStep context step document)
          (applyStep context step other) := agree_applyStep respects alike
      dsimp only
      cases agree with
      | ok first second pair notes =>
          rw [first, second]
          exact .ok rfl rfl pair (notes.cons _)
      | error first second _ =>
          rw [first, second]
          exact .error rfl rfl rfl

theorem agree_performAll {plan : List (Int × Step Value)}
    (respects : ∀ entry ∈ plan, Step.RespectsOrder entry.2) (alike : Alike document other) :
    AgreeOnDocuments (engine.performAll context plan document)
      (engine.performAll context plan other) := by
  induction plan generalizing document other with
  | nil => exact .pure alike
  | cons entry rest ih =>
      obtain ⟨first, later⟩ := List.forall_mem_cons.mp respects
      exact (agree_perform first alike).bind fun _ _ migrated => ih later migrated

/-!
## The phases
-/

theorem digestOf_eq (alike : Alike document other) : digestOf document = digestOf other := by
  rw [digestOf, digestOf, Representation.tree_value, Representation.tree_value,
    alike.ofObject_eq]

theorem agree_stamp (declaration : Declaration) (applied : List Int)
    (alike : Alike document other) :
    AgreeOnDocuments
      (.ofExcept ((engine.stamp declaration applied document).mapError Failure.untyped))
      (.ofExcept ((engine.stamp declaration applied other).mapError Failure.untyped)) := by
  unfold stamp
  split
  · cases Listing.written (declaration.restrictedTo engine.registry.versions ++ applied) with
    | error fault => exact .error rfl rfl rfl
    | ok text => exact .ok rfl rfl (Marker.alike_put text alike) .nil
  · exact .ok rfl rfl alike .nil

/-- An engine all of whose steps respect the order of entries migrates alike documents alike. -/
theorem agree_migrate
    (respects : ∀ declaration, ∀ entry ∈ Plan.outstanding engine.registry declaration,
      Step.RespectsOrder entry.2) (alike : Alike document other) :
    Logged.Agree MigrationResult.Alike Failure.SameClass (engine.migrate document)
      (engine.migrate other) := by
  have context : engine.contextOf document = engine.contextOf other := contextOf_eq alike
  cases document with
  | scalar scalar =>
      cases alike
      exact .fail rfl
  | array items =>
      obtain ⟨others, rfl, _⟩ := alike.exists_array
      exact .fail rfl
  | object entries =>
      obtain ⟨others, rfl, same⟩ := alike.exists_object
      rw [migrate_of_isObject rfl, migrate_of_isObject rfl, digestOf_eq alike]
      simp only [Representation.tree_value, ← context]
      -- Up to the plan both runs do the same; from then on the documents they hold are alike.
      refine .bind_same Failure.sameClass_refl _ fun inputDigest _ => ?_
      refine (Resolution.agree_resolve same engine.family engine.strategies).bind
        fun satisfied _ found => ?_
      subst found
      refine .bind_same Failure.sameClass_refl _ fun _ _ => ?_
      refine .bind_same Failure.sameClass_refl _ fun _ _ => ?_
      refine (agree_performAll (respects _) alike).bind fun last otherLast performed => ?_
      refine (agree_stamp _ _ performed).bind fun final otherFinal stamped => ?_
      refine .bind_same Failure.sameClass_refl _ fun _ _ => ?_
      rw [digestOf_eq stamped]
      refine .bind_same Failure.sameClass_refl _ fun outputDigest _ => ?_
      exact .pure ⟨rfl, stamped, rfl, rfl, rfl, rfl⟩

/-- Of two documents that differ in the order of their entries alone, an engine of the known
families either migrates both, with results that differ in the order of entries alone and the same
warnings in each step up to their order, or it fails on both with failures of the same class. The
documents are trees, so they share no parts: where parts are shared, what a step does at one place
shows at the other, and it may come earlier or later for another order of entries. -/
theorem migrate_alike (settings : Settings) (family : Family) (alike : Alike document other) :
    (∃ result otherResult,
      ((ofTrees settings family).migrate document).outcome = .ok result ∧
      ((ofTrees settings family).migrate other).outcome = .ok otherResult ∧
      result.Alike otherResult ∧
      ∀ stepId,
        (Journal.warningsOf stepId ((ofTrees settings family).migrate document).notes).Perm
          (Journal.warningsOf stepId ((ofTrees settings family).migrate other).notes)) ∨
    ∃ failure otherFailure,
      ((ofTrees settings family).migrate document).outcome = .error failure ∧
      ((ofTrees settings family).migrate other).outcome = .error otherFailure ∧
      failure.SameClass otherFailure := by
  have respects (declaration : Declaration) (entry : Int × Step Value)
      (planned : entry ∈ Plan.outstanding (ofTrees settings family).registry declaration) :
      entry.2.RespectsOrder := by
    obtain ⟨blueprint, known, rfl⟩ := exists_blueprint_of_planned planned
    exact Blueprint.respectsOrder fun _ member => Family.byName_treatments known member
  cases agree_migrate respects alike with
  | ok first second same notes =>
      exact .inl ⟨_, _, first, second, same, fun stepId => Journal.perm_warningsOf notes stepId⟩
  | error first second same => exact .inr ⟨_, _, first, second, same⟩

/-- A condition with a priority that is no number. -/
def unclearCondition (priority : String) : Value :=
  .object
    [(.text "type", .text "if"),
      (.text "properties", .object [(.text "priority", .text priority)])]

/-- A chain that has two unclear conditions by name, the content behind its version. -/
def unclearConditions : Value :=
  .object
    [(.text "version", .int 101),
      (.text "content", .object
        [(.text "elements", .object
          [(.text "first", unclearCondition "high"), (.text "second", unclearCondition "low")])])]

/-- The same chain with both pairs the other way round. -/
def swappedConditions : Value :=
  .object
    [(.text "content", .object
        [(.text "elements", .object
          [(.text "second", unclearCondition "low"), (.text "first", unclearCondition "high")])]),
      (.text "version", .int 101)]

theorem alike_swappedConditions : Alike unclearConditions swappedConditions := by
  have condition (priority : String) :
      Alike (unclearCondition priority) (unclearCondition priority) := by
    have properties : Alike (.object [(.text "priority", .text priority)])
        (.object [(.text "priority", .text priority)]) :=
      Alike.object_iff.mpr (Entries.Match.nil.put "priority" (.scalar (.text priority)))
    exact Alike.object_iff.mpr
      ((Entries.Match.nil.put "type" (.scalar (.text "if"))).put "properties" properties)
  have elements := ((Entries.Match.nil.put "first" (condition "high")).put "second"
    (condition "low")).rearrange (.swap _ _ _)
  have content := Entries.Match.nil.put "elements" (Alike.object_iff.mpr elements)
  exact Alike.object_iff.mpr (((Entries.Match.nil.put "version" (.scalar (.int 101))).put "content"
    (Alike.object_iff.mpr content)).rearrange (.swap _ _ _))

theorem migrate_alike_swappedConditions :
    Alike unclearConditions swappedConditions ∧
    ∃ result otherResult,
      (ofChains.migrate unclearConditions).outcome = .ok result ∧
      (ofChains.migrate swappedConditions).outcome = .ok otherResult ∧
      result.applied = [102, 103] ∧ result.Alike otherResult ∧
      Journal.warningsOf "chain.v102" (ofChains.migrate unclearConditions).notes =
        (Journal.warningsOf "chain.v102" (ofChains.migrate swappedConditions).notes).reverse ∧
      ∀ stepId,
        (Journal.warningsOf stepId (ofChains.migrate unclearConditions).notes).Perm
          (Journal.warningsOf stepId (ofChains.migrate swappedConditions).notes) := by
  have seen : (ofChains.migrate unclearConditions).outcome.toOption.map (·.applied) =
      some [102, 103] := by
    decide +kernel
  obtain ⟨found, migrated, applied⟩ := Outcome.exists_eq_ok_of_toOption_map seen
  rcases migrate_alike ⟨true, false, [], ""⟩ .chain alike_swappedConditions with
    ⟨result, otherResult, first, second, same, warned⟩ | ⟨_, _, failed, _⟩
  · have result_eq : found = result := Except.ok.inj (migrated.symm.trans first)
    refine ⟨alike_swappedConditions, result, otherResult, first, second, result_eq ▸ applied, same,
      ?_, warned⟩
    decide +kernel
  · exact nomatch migrated.symm.trans failed

end Engine

end Uplift
