import Uplift.Proofs.Engine.Assembly
import Uplift.Proofs.Engine.Execution
import Uplift.Proofs.Engine.Phases
import Uplift.Proofs.Plan
import Uplift.Proofs.Versions.Marker
import Uplift.Proofs.Writable

/-!
# Delivered documents

What a migration delivers is what the steps of its plan gave, with a marker if it had a plan and the
engine marks documents. The marker lists every registered version. A standard engine finds it again,
and so it finds nothing outstanding in a document that it has marked.
-/

set_option autoImplicit false

namespace Uplift.Engine

/-- The versions that a document is marked with: the registered ones that it declared, and those of
the plan. -/
abbrev markedVersions (engine : Engine Value) (declaration : Declaration) : List Int :=
  declaration.restrictedTo engine.registry.versions ++
    (Plan.outstanding engine.registry declaration).map (·.1)

def isMarked (engine : Engine Value) (declaration : Declaration) : Bool :=
  engine.stampVersions && !(Plan.outstanding engine.registry declaration).isEmpty

/-- What is delivered after the plan for a declaration gave a document. -/
def delivered (engine : Engine Value) (declaration : Declaration) (last : Value) : Value :=
  if engine.isMarked declaration then
    Marker.write engine.fields (engine.markedVersions declaration) last
  else last

section Digestion

variable {document : Value}

theorem digestion_eq_ok_iff (root : document.isObject = true) {digest : String} :
    digestion document = .ok digest ↔
      document.isWritable = true ∧ digest = Digest.hex document := by
  cases document with
  | scalar value => cases root
  | array items => cases root
  | object entries =>
      change (if _ then _ else _) = _ ↔ _
      cases (Value.object entries).isWritable <;> simp [eq_comm]

theorem digestion_eq_error_iff (root : document.isObject = true) {fault : Fault} :
    digestion document = .error fault ↔
      document.isWritable = false ∧ fault = .integerTooLong := by
  cases document with
  | scalar value => cases root
  | array items => cases root
  | object entries =>
      change (if _ then _ else _) = _ ↔ _
      cases (Value.object entries).isWritable <;> simp [eq_comm]

end Digestion

variable {engine : Engine Value} {declaration : Declaration} {last final : Value}

theorem isMarked_eq_true_iff :
    engine.isMarked declaration = true ↔
      engine.stampVersions = true ∧ Plan.outstanding engine.registry declaration ≠ [] := by
  simp [isMarked]

theorem delivered_of_outstanding_eq_nil
    (complete : Plan.outstanding engine.registry declaration = []) :
    engine.delivered declaration last = last := by
  simp [delivered, isMarked, complete]

/-- Of a marked document only the entry of the marker is changed. -/
theorem delivered_marks (marked : engine.isMarked declaration = true)
    (root : last.isObject = true) :
    ∃ before after, last = .object before ∧ engine.delivered declaration last = .object after ∧
      Marker.Marks engine.fields (Listing.format (engine.markedVersions declaration))
        before after := by
  cases last with
  | scalar value => cases root
  | array items => cases root
  | object before =>
      obtain ⟨after, written, marks⟩ := Marker.put_marks engine.fields
        (Listing.format (engine.markedVersions declaration)) before
      refine ⟨before, after, rfl, ?_, marks⟩
      simp only [delivered, marked, if_true, Marker.write, written]

theorem isObject_delivered (root : last.isObject = true) :
    (engine.delivered declaration last).isObject = true := by
  cases marked : engine.isMarked declaration with
  | false => simpa [delivered, marked] using root
  | true =>
      obtain ⟨_, _, _, written, _⟩ := delivered_marks marked root
      rw [written]
      rfl

theorem isWritable_delivered (writable : last.isWritable = true) :
    (engine.delivered declaration last).isWritable = true := by
  unfold delivered
  split
  · exact Marker.isWritable_put _ writable
  · exact writable

/-- What is marked lists all registered versions. -/
theorem delivered_of_isMarked (marked : engine.isMarked declaration = true) :
    engine.delivered declaration last =
      Marker.put engine.fields (Listing.format engine.registry.versions) last := by
  have versions : Ascending.ofList engine.registry.versions = engine.registry.versions :=
    Ascending.ofList_eq_of_mem_iff engine.registry.pairwise_versions fun _ => Iff.rfl
  rw [delivered, if_pos marked, Marker.write, Listing.format, Listing.format,
    Plan.ofList_restrictedTo_append_outstanding, versions]

/-- Marking a document fails only with a version of more digits than are written. -/
theorem marking_eq :
    engine.marking declaration last =
      if engine.isMarked declaration && !Listing.isWritable (engine.markedVersions declaration) then
        .error .integerTooLong
      else .ok (engine.delivered declaration last) := by
  unfold marking stamp delivered isMarked Listing.written
  rw [List.isEmpty_map]
  cases engine.stampVersions && !(Plan.outstanding engine.registry declaration).isEmpty with
  | false => rfl
  | true => cases Listing.isWritable (engine.markedVersions declaration) <;> rfl

theorem marking_eq_ok_iff :
    engine.marking declaration last = .ok final ↔
      (engine.isMarked declaration = true →
        Listing.isWritable (engine.markedVersions declaration) = true) ∧
        final = engine.delivered declaration last := by
  rw [marking_eq]
  cases engine.isMarked declaration <;>
    cases Listing.isWritable (engine.markedVersions declaration) <;> simp [eq_comm]

theorem marking_eq_error_iff {fault : Fault} :
    engine.marking declaration last = .error fault ↔
      engine.isMarked declaration = true ∧
        Listing.isWritable (engine.markedVersions declaration) = false ∧
          fault = .integerTooLong := by
  rw [marking_eq]
  cases engine.isMarked declaration <;>
    cases Listing.isWritable (engine.markedVersions declaration) <;> simp [eq_comm]

/-- A document is marked if all registered versions can be written. -/
theorem marking_eq_delivered
    (versions : ∀ version ∈ engine.registry.versions, Scalar.isWritable (.int version) = true) :
    engine.marking declaration last = .ok (engine.delivered declaration last) :=
  marking_eq_ok_iff.mpr ⟨fun _ => Listing.isWritable_iff.mpr fun version member =>
    versions version (Plan.mem_restrictedTo_append_outstanding.mp member), rfl⟩

theorem digestion_delivered (root : last.isObject = true) (writable : last.isWritable = true) :
    digestion (engine.delivered declaration last) =
      .ok (Digest.hex (engine.delivered declaration last)) :=
  (digestion_eq_ok_iff (isObject_delivered root)).mpr ⟨isWritable_delivered writable, rfl⟩

namespace Completes

variable {document : Value} {result : MigrationResult Value}

theorem isObject_last (completes : engine.Completes document last result) :
    last.isObject = true :=
  (performAll_eq_ok_iff.mp completes.performed).2.isObject completes.starts.root

theorem document_eq (completes : engine.Completes document last result) :
    result.document = engine.delivered result.satisfied.declaration last :=
  (marking_eq_ok_iff.mp completes.marked).2

theorem document_eq_of_outstanding_eq_nil (completes : engine.Completes document last result)
    (complete : Plan.outstanding engine.registry result.satisfied.declaration = []) :
    result.document = document := by
  have performed := completes.performed
  rw [execution, complete] at performed
  cases performed
  rw [completes.document_eq, delivered_of_outstanding_eq_nil complete]

theorem applied_eq_nil_iff (completes : engine.Completes document last result) :
    result.applied = [] ↔
      Plan.outstanding engine.registry result.satisfied.declaration = [] := by
  rw [completes.applied, List.map_eq_nil_iff]

/-- A standard engine finds all registered versions in a document that it has marked. -/
theorem resolution_of_isMarked (completes : engine.Completes document last result)
    (standard : engine.Standard)
    (marked : engine.isMarked result.satisfied.declaration = true) :
    ∃ satisfied, engine.resolution result.document = .ok satisfied ∧
      satisfied.declaration = .explicit engine.registry.versions := by
  obtain ⟨before, after, _, written, marks⟩ := delivered_marks marked completes.isObject_last
  have writable := (marking_eq_ok_iff.mp completes.marked).1 marked
  have natural : ∀ version ∈ engine.markedVersions result.satisfied.declaration, 0 ≤ version := by
    intro version member
    have registered := Plan.mem_restrictedTo_append_outstanding.mp member
    exact Int.le_of_lt (standard.registry.versions_pos registered)
  obtain ⟨satisfied, resolved, declared⟩ := Marker.resolve_of_marks engine.family
    (engine.contextOf (.object after)).subject marks natural writable
  refine ⟨satisfied, ?_, ?_⟩
  · rw [completes.document_eq, written, resolution, standard.strategies]
    exact resolved
  · rw [declared, Plan.ofList_restrictedTo_append_outstanding]

/-- What a document declares after a migration: what it declared before if nothing was applied, and
all registered versions otherwise. -/
theorem resolution_again (completes : engine.Completes document last result)
    (standard : engine.Standard) (stamping : engine.stampVersions = true) :
    ∃ again, engine.resolution result.document = .ok again ∧
      again.declaration =
        if result.applied = [] then result.satisfied.declaration
        else .explicit engine.registry.versions := by
  by_cases complete : Plan.outstanding engine.registry result.satisfied.declaration = []
  · refine ⟨result.satisfied, ?_, ?_⟩
    · rw [completes.document_eq_of_outstanding_eq_nil complete]
      exact completes.starts.resolved
    · rw [if_pos (completes.applied_eq_nil_iff.mpr complete)]
  · have marked := isMarked_eq_true_iff.mpr ⟨stamping, complete⟩
    obtain ⟨again, resolved, declared⟩ := completes.resolution_of_isMarked standard marked
    refine ⟨again, resolved, ?_⟩
    rw [declared, if_neg fun nothing => complete (completes.applied_eq_nil_iff.mp nothing)]

end Completes

/-- No engine rejects a document that lists registered versions only. -/
theorem inspection_of_registered {document : Value} {versions : List Int}
    (registered : ∀ version ∈ versions, version ∈ engine.registry.versions) :
    engine.inspection document (.explicit versions) = .ok () := by
  unfold inspection guard
  rw [Plan.unknown_eq_nil registered]
  simp

end Uplift.Engine
