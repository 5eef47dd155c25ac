import Uplift.Proofs.Engine.Delivery
import Uplift.Proofs.Engine.FamilyPlan
import Uplift.Proofs.Family.Settled

/-!
# Migrated documents are settled

A step behind the first version of a family has nothing left to do on a document that the engine of
the family delivers after it has applied the step: neither the steps that follow nor the marker
bring back what it tidied.
-/

set_option autoImplicit false

namespace Uplift.Engine

variable {settings : Settings} {family : Family} {blueprint : Blueprint} {document last : Value}
  {declaration : Declaration} {result : MigrationResult Value}

/-- After a plan has run each of its steps behind the first version is settled. -/
theorem settled_of_runs {context : Context} (known : blueprint ∈ family.blueprints)
    (behind : 101 < blueprint.version)
    (planned : blueprint.version ∈
      (Plan.outstanding (ofTrees settings family).registry declaration).map (·.1))
    (runs : Plan.Runs context (Plan.outstanding (ofTrees settings family).registry declaration)
      document last) :
    blueprint.Settled (settings.fieldsFor family.name) last := by
  obtain ⟨entry, member, version⟩ := List.mem_map.mp planned
  obtain ⟨own, ownKnown, rfl⟩ := exists_blueprint_of_planned member
  cases Family.eq_of_version_eq ownKnown known version
  obtain ⟨before, after, split⟩ := List.append_of_mem member
  have ascending :=
    Plan.pairwise_outstanding_versions (ofTrees settings family).registry declaration
  have laterPlanned : ∀ later ∈ after,
      later ∈ Plan.outstanding (ofTrees settings family).registry declaration := by
    intro later laterMember
    rw [split]
    exact List.mem_append_right _ (.tail _ laterMember)
  rw [split] at runs ascending
  obtain ⟨reached, _, rest⟩ := Plan.runs_append_iff.mp runs
  cases rest with
  | cons gives runsAfter =>
      have settled := Family.settled_of_migrates known behind (Blueprint.apply_eq_ok_iff.mp gives.1)
      refine runsAfter.preserves
        (blueprint.Settled (settings.fieldsFor family.name)) ?_ settled
      intro later laterMember old new laterGives oldSettled
      obtain ⟨laterBlueprint, laterKnown, rfl⟩ :=
        exists_blueprint_of_planned (laterPlanned later laterMember)
      have order : blueprint.version < laterBlueprint.version := by
        rw [List.map_append, List.map_cons, List.pairwise_append, List.pairwise_cons] at ascending
        exact ascending.2.1.1 _ (List.mem_map_of_mem laterMember)
      exact Family.settled_of_later known laterKnown behind order oldSettled
        (Blueprint.apply_eq_ok_iff.mp laterGives.1)

theorem settled_delivered {engine : Engine Value} (declaration : Declaration)
    (apart : Marker.Apart engine.fields) (known : blueprint ∈ family.blueprints)
    (behind : 101 < blueprint.version)
    (settled : blueprint.Settled engine.fields last) :
    blueprint.Settled engine.fields (engine.delivered declaration last) := by
  unfold delivered
  split
  · exact Blueprint.Migrates.put apart (Family.staysInContent known behind) settled
  · exact settled

/-- Under the standard field names, each step behind the first version that a migration has applied
gives the delivered document back when it is applied to it once more. The document is a tree, so it
shares no parts: where it does, a later step may leave something for an earlier one, as in
`Chain.step102_inOrder_sharedProperties`. -/
theorem apply_applied_again (standard : settings.fieldsFor family.name = .standard)
    (migrated : ((ofTrees settings family).migrate document).outcome = .ok result)
    (known : blueprint ∈ family.blueprints) (behind : 101 < blueprint.version)
    (applied : blueprint.version ∈ result.applied) (context : Context) :
    ((blueprint.toStep (Rewrite.onTree .standard)).apply context result.document).outcome =
      .ok result.document := by
  have fields : (ofTrees settings family).fields = .standard := standard
  obtain ⟨last, completes⟩ := migrate_eq_ok_iff.mp migrated
  rw [completes.applied] at applied
  have settled : blueprint.Settled (ofTrees settings family).fields last :=
    settled_of_runs known behind applied (performAll_eq_ok_iff.mp completes.performed).2
  have apart : Marker.Apart (ofTrees settings family).fields := by
    rw [fields]
    exact Marker.apart_standard
  have delivered :=
    settled_delivered result.satisfied.declaration apart known behind settled
  rw [fields, ← completes.document_eq] at delivered
  exact Blueprint.apply_eq_ok_iff.mpr delivered

/-- The engine of chains that marks documents and rejects none, under the standard field names. -/
def ofChains : Engine Value :=
  ofTrees ⟨true, false, [], ""⟩ .chain

/-- A flat chain with a condition, and below it a loop. -/
def conditionalChain : Value :=
  .object
    [(.text "version", .int 0),
      (.text "elements", .array
        [.object
          [(.text "element-type", .text "if"),
            (.text "properties", .object [(.text "priority", .text "7")]),
            (.text "children", .array
              [.object
                [(.text "type", .text "loop-2"),
                  (.text "properties", .object [(.text "maxLoopIteration", .text " ")])]])]])]

theorem apply_applied_again_conditionalChain :
    ∃ result, (ofChains.migrate conditionalChain).outcome = .ok result ∧
      result.applied = [101, 102, 103] ∧
      ((Chain.v102.toStep (Rewrite.onTree .standard)).apply (.ofFamily "chain")
        result.document).outcome = .ok result.document ∧
      ((Chain.v103.toStep (Rewrite.onTree .standard)).apply (.ofFamily "chain")
        result.document).outcome = .ok result.document := by
  have seen : (ofChains.migrate conditionalChain).outcome.toOption.map (·.applied) =
      some [101, 102, 103] := by
    decide +kernel
  obtain ⟨result, migrated, applied⟩ := Outcome.exists_eq_ok_of_toOption_map seen
  have standard : (⟨true, false, [], ""⟩ : Settings).fieldsFor Family.chain.name = .standard := rfl
  refine ⟨result, migrated, applied, ?_, ?_⟩
  · refine apply_applied_again standard migrated (.tail _ (.head _)) (by decide) ?_ _
    rw [applied]
    decide
  · refine apply_applied_again standard migrated (.tail _ (.tail _ (.head _))) (by decide) ?_ _
    rw [applied]
    decide

end Uplift.Engine
