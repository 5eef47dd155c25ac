import Uplift.Engine
import Uplift.Proofs.Journal
import Uplift.Proofs.Outcome
import Uplift.Proofs.Value.Reading

/-!
# The phases of a migration

A migration goes through its phases in a fixed order: the digest of the input, the resolution of its
versions, the guard, the plan, the marker, the digest of the output. `Completes` says what holds
when all of them succeed, and `Breaks` says in which phase, and with what, a migration fails.
-/

set_option autoImplicit false

namespace Uplift

@[simp] theorem Representation.tree_value (document : Value) :
    Representation.tree document = document := rfl

namespace Engine

variable {δ : Type} [Representation δ]

abbrev resolution (engine : Engine δ) (document : δ) : Except Failure Satisfied :=
  (Resolution.resolve engine.family engine.strategies
    (engine.contextOf (Representation.tree document)).subject
    (Representation.tree document)).outcome

abbrev inspection (engine : Engine δ) (document : δ) (declaration : Declaration) :
    Except Failure Unit :=
  (engine.guard (engine.contextOf (Representation.tree document)).subject declaration).outcome

abbrev execution (engine : Engine δ) (document : δ) (declaration : Declaration) :
    Except Failure δ :=
  (engine.performAll (engine.contextOf (Representation.tree document))
    (Plan.outstanding engine.registry declaration) document).outcome

abbrev marking (engine : Engine δ) (declaration : Declaration) (last : δ) : Except Fault δ :=
  engine.stamp declaration ((Plan.outstanding engine.registry declaration).map (·.1)) last

abbrev digestion (document : δ) : Except Fault String :=
  Digest.ofObject .document (Representation.tree document)

/-!
## The context of a run
-/

theorem readIdentity_object (field : String) (entries : Entries Value) :
    readIdentity field (.object entries) =
      answerIf (entries.legibleAt field) (identity? field (.object entries)) := by
  unfold readIdentity identity? Entries.legibleAt
  rw [Value.get?]
  cases entries.lookup (.text field) with
  | none => rfl
  | some value =>
      dsimp only
      rw [Value.asText_eq, map_answerIf]
      rfl

omit [Representation δ] in
/-- The context is that of the document, if the texts of its identity can be made. -/
theorem newContext_object (engine : Engine δ) (entries : Entries Value) :
    engine.newContext (.object entries) =
      answerIf (entries.legibleAt engine.fields.id && entries.legibleAt engine.fields.name)
        (engine.contextOf (.object entries)) := by
  rw [newContext, readIdentity_object, readIdentity_object]
  cases entries.legibleAt engine.fields.id <;> cases entries.legibleAt engine.fields.name <;> rfl

/-- A document whose context cannot be made cannot be digested, for the same reason. -/
theorem digestion_of_newContext {engine : Engine δ} {document : δ} {fault : Fault}
    (root : (Representation.tree document).isObject = true)
    (failed : engine.newContext (Representation.tree document) = .error fault) :
    digestion document = .error fault := by
  unfold digestion
  cases tree : Representation.tree document with
  | scalar value => simp [tree, Value.isObject] at root
  | array items => simp [tree, Value.isObject] at root
  | object entries =>
      rw [tree, newContext_object, answerIf_eq_error_iff] at failed
      obtain ⟨illegible, rfl⟩ := failed
      have unwritable : (Value.object entries).isWritable = false := by
        refine Bool.eq_false_iff.mpr fun writable => ?_
        rw [Value.isWritable_object_iff] at writable
        rw [writable.legibleAt, writable.legibleAt] at illegible
        cases illegible
      rw [Digest.ofObject, unwritable]
      rfl

omit [Representation δ] in
theorem newContext_of_ok {engine : Engine δ} {tree : Value} {context : Context}
    (root : tree.isObject = true) (made : engine.newContext tree = .ok context) :
    context = engine.contextOf tree := by
  cases tree with
  | scalar value => cases root
  | array items => cases root
  | object entries =>
      rw [newContext_object, answerIf_eq_ok_iff] at made
      exact made.2

/-!
## The phases
-/

/-- A document is an object that can be digested, and its declaration is found and not rejected. -/
structure Starts (engine : Engine δ) (document : δ) (satisfied : Satisfied)
    (inputDigest : String) : Prop where
  root : (Representation.tree document).isObject = true
  digested : digestion document = .ok inputDigest
  resolved : engine.resolution document = .ok satisfied
  accepted : engine.inspection document satisfied.declaration = .ok ()

/-- All phases of a migration succeed, and `last` is what the steps of the plan gave. -/
structure Completes (engine : Engine δ) (document last : δ) (result : MigrationResult δ) :
    Prop where
  starts : engine.Starts document result.satisfied result.inputDigest
  performed : engine.execution document result.satisfied.declaration = .ok last
  marked : engine.marking result.satisfied.declaration last = .ok result.document
  digested : digestion result.document = .ok result.outputDigest
  applied :
    result.applied = (Plan.outstanding engine.registry result.satisfied.declaration).map (·.1)
  family : result.family = engine.family

/-- A phase of a migration fails after all before it succeeded, and the migration fails with it. -/
inductive Breaks (engine : Engine δ) (document : δ) : Failure → Prop where
  | root : (Representation.tree document).isObject = false →
      Breaks engine document
        (.migration (.invalidRoot engine.family (Representation.tree document).kind))
  | input {fault : Fault} : (Representation.tree document).isObject = true →
      digestion document = .error fault → Breaks engine document (.untyped fault)
  | resolution {inputDigest : String} {failure : Failure} :
      (Representation.tree document).isObject = true → digestion document = .ok inputDigest →
      engine.resolution document = .error failure → Breaks engine document failure
  | guard {inputDigest : String} {satisfied : Satisfied} {failure : Failure} :
      (Representation.tree document).isObject = true → digestion document = .ok inputDigest →
      engine.resolution document = .ok satisfied →
      engine.inspection document satisfied.declaration = .error failure →
      Breaks engine document failure
  | step {inputDigest : String} {satisfied : Satisfied} {failure : Failure} :
      engine.Starts document satisfied inputDigest →
      engine.execution document satisfied.declaration = .error failure →
      Breaks engine document failure
  | marker {inputDigest : String} {satisfied : Satisfied} {last : δ} {fault : Fault} :
      engine.Starts document satisfied inputDigest →
      engine.execution document satisfied.declaration = .ok last →
      engine.marking satisfied.declaration last = .error fault →
      Breaks engine document (.untyped fault)
  | output {inputDigest : String} {satisfied : Satisfied} {last final : δ} {fault : Fault} :
      engine.Starts document satisfied inputDigest →
      engine.execution document satisfied.declaration = .ok last →
      engine.marking satisfied.declaration last = .ok final →
      digestion final = .error fault → Breaks engine document (.untyped fault)

theorem Starts.satisfied_eq {engine : Engine δ} {document : δ} {satisfied other : Satisfied}
    {inputDigest : String} (starts : engine.Starts document other inputDigest)
    (resolved : engine.resolution document = .ok satisfied) : other = satisfied := by
  have found := starts.resolved
  rw [resolved] at found
  exact (Except.ok.inj found).symm

theorem digestOf_of_ok {document : δ} {digest : String}
    (digested : digestion document = .ok digest) :
    digestOf document = ⟨[], .ok digest⟩ := by
  unfold digestion at digested
  rw [digestOf, digested]
  rfl

theorem digestOf_of_error {document : δ} {fault : Fault}
    (undigested : digestion document = .error fault) :
    digestOf document = ⟨[], .error (.untyped fault)⟩ := by
  unfold digestion at undigested
  rw [digestOf, undigested]
  rfl

theorem migrate_of_isObject {engine : Engine δ} {document : δ}
    (root : (Representation.tree document).isObject = true) :
    engine.migrate document = (do
      let inputDigest ← digestOf document
      let satisfied ← Resolution.resolve engine.family engine.strategies
        (engine.contextOf (Representation.tree document)).subject (Representation.tree document)
      engine.guard (engine.contextOf (Representation.tree document)).subject satisfied.declaration
      let applied := (Plan.outstanding engine.registry satisfied.declaration).map (·.1)
      Logged.note (planned engine.registry.versions applied)
      let migrated ← engine.performAll (engine.contextOf (Representation.tree document))
        (Plan.outstanding engine.registry satisfied.declaration) document
      let stamped ← Logged.ofExcept
        ((engine.stamp satisfied.declaration applied migrated).mapError Failure.untyped)
      Logged.note (done applied)
      let outputDigest ← digestOf stamped
      pure ⟨engine.family, stamped, applied, satisfied, inputDigest, outputDigest⟩) := by
  have checked : engine.checkRoot document = .ok () := by
    unfold checkRoot
    cases tree : Representation.tree document with
    | scalar value => simp [tree, Value.isObject] at root
    | array items => simp [tree, Value.isObject] at root
    | object entries => rfl
  unfold migrate migrateIn contextIn
  rw [checked]
  cases made : engine.newContext (Representation.tree document) with
  | error fault =>
      simp only [made, digestOf_of_error (digestion_of_newContext root made)]
      rfl
  | ok context =>
      rw [newContext_of_ok root made] at made
      simp only [made]
      rfl

theorem migrate_of_not_isObject {engine : Engine δ} {document : δ}
    (root : (Representation.tree document).isObject = false) :
    engine.migrate document =
      Logged.fail
        (.migration (.invalidRoot engine.family (Representation.tree document).kind)) := by
  unfold migrate migrateIn checkRoot
  cases tree : Representation.tree document with
  | scalar value => rfl
  | array items => rfl
  | object entries => simp [tree, Value.isObject] at root

/-- The versions of the plan for a declaration. -/
abbrev lacking (engine : Engine δ) (declaration : Declaration) : List Int :=
  (Plan.outstanding engine.registry declaration).map (·.1)

/-- What a migration does with what the steps gave. -/
def finish (engine : Engine δ) (inputDigest : String) (satisfied : Satisfied) (last : δ) :
    Logged Failure (MigrationResult δ) := do
  let stamped ← Logged.ofExcept
    ((engine.marking satisfied.declaration last).mapError Failure.untyped)
  Logged.note (done (engine.lacking satisfied.declaration))
  let outputDigest ← digestOf stamped
  pure ⟨engine.family, stamped, engine.lacking satisfied.declaration, satisfied, inputDigest,
    outputDigest⟩

/-- What a migration does once a declaration is found and not rejected. -/
def completion (engine : Engine δ) (document : δ) (inputDigest : String) (satisfied : Satisfied) :
    Logged Failure (MigrationResult δ) := do
  Logged.note (planned engine.registry.versions (engine.lacking satisfied.declaration))
  let last ← engine.performAll (engine.contextOf (Representation.tree document))
    (Plan.outstanding engine.registry satisfied.declaration) document
  engine.finish inputDigest satisfied last

theorem migrate_of_digested {engine : Engine δ} {document : δ} {inputDigest : String}
    (root : (Representation.tree document).isObject = true)
    (digested : digestion document = .ok inputDigest) :
    engine.migrate document = (do
      let satisfied ← Resolution.resolve engine.family engine.strategies
        (engine.contextOf (Representation.tree document)).subject (Representation.tree document)
      engine.guard (engine.contextOf (Representation.tree document)).subject satisfied.declaration
      engine.completion document inputDigest satisfied) := by
  rw [migrate_of_isObject root, digestOf_of_ok digested]
  rfl

theorem migrate_of_undigested {engine : Engine δ} {document : δ} {fault : Fault}
    (root : (Representation.tree document).isObject = true)
    (undigested : digestion document = .error fault) :
    engine.migrate document = ⟨[], .error (.untyped fault)⟩ := by
  rw [migrate_of_isObject root, digestOf_of_error undigested]
  rfl

/-- A migration succeeds exactly if all its phases do. -/
theorem migrate_eq_ok_iff {engine : Engine δ} {document : δ} {result : MigrationResult δ} :
    (engine.migrate document).outcome = .ok result ↔
      ∃ last, engine.Completes document last result := by
  cases root : (Representation.tree document).isObject with
  | false =>
      rw [migrate_of_not_isObject root]
      constructor
      · intro migrated
        cases migrated
      · intro phases
        obtain ⟨last, completes⟩ := phases
        rw [completes.starts.root] at root
        cases root
  | true =>
      rw [migrate_of_isObject root]
      simp only [Logged.bind_outcome_ok, digestOf, Logged.ofExcept_outcome,
        Outcome.mapError_eq_ok_iff, Logged.note_outcome, Logged.pure_outcome, Except.ok.injEq]
      constructor
      · intro phases
        obtain ⟨inputDigest, digested, satisfied, resolved, _, accepted, _, _, last, performed,
          final, marked, _, _, outputDigest, output, rfl⟩ := phases
        exact ⟨last, ⟨root, digested, resolved, accepted⟩, performed, marked, output, rfl, rfl⟩
      · intro phases
        obtain ⟨last, starts, performed, marked, output, applied, family⟩ := phases
        obtain ⟨_, digested, resolved, accepted⟩ := starts
        refine ⟨_, digested, _, resolved, (), accepted, (), trivial, last, performed, _, marked, (),
          trivial, _, output, ?_⟩
        rw [← applied, ← family]

/-- A migration fails exactly with what one of its phases fails with. -/
theorem migrate_eq_error_iff {engine : Engine δ} {document : δ} {failure : Failure} :
    (engine.migrate document).outcome = .error failure ↔ engine.Breaks document failure := by
  cases root : (Representation.tree document).isObject with
  | false =>
      rw [migrate_of_not_isObject root]
      constructor
      · intro failed
        cases failed
        exact .root root
      · intro breaks
        cases breaks with
        | root => rfl
        | input object | resolution object | guard object =>
            rw [object] at root
            cases root
        | step starts | marker starts | output starts =>
            rw [starts.root] at root
            cases root
  | true =>
      rw [migrate_of_isObject root]
      simp only [Logged.bind_outcome_error, digestOf, Logged.ofExcept_outcome,
        Outcome.mapError_eq_error_iff, Outcome.mapError_eq_ok_iff, Logged.note_outcome,
        Logged.pure_outcome, reduceCtorEq, false_or, exists_false, and_false, or_false]
      constructor
      · intro phases
        rcases phases with ⟨fault, digested, rfl⟩ | ⟨inputDigest, digested, unresolved |
          ⟨satisfied, resolved, rejected | ⟨_, accepted, _, _, failed | ⟨last, performed,
            ⟨fault, unmarked, rfl⟩ | ⟨final, marked, _, _, fault, undigested, rfl⟩⟩⟩⟩⟩
        · exact .input root digested
        · exact .resolution root digested unresolved
        · exact .guard root digested resolved rejected
        · exact .step ⟨root, digested, resolved, accepted⟩ failed
        · exact .marker ⟨root, digested, resolved, accepted⟩ performed unmarked
        · exact .output ⟨root, digested, resolved, accepted⟩ performed marked undigested
      · intro breaks
        cases breaks with
        | root notObject =>
            rw [notObject] at root
            cases root
        | input _ digested => exact .inl ⟨_, digested, rfl⟩
        | resolution _ digested unresolved => exact .inr ⟨_, digested, .inl unresolved⟩
        | guard _ digested resolved rejected =>
            exact .inr ⟨_, digested, .inr ⟨_, resolved, .inl rejected⟩⟩
        | step starts failed =>
            exact .inr ⟨_, starts.digested, .inr ⟨_, starts.resolved, .inr ⟨(), starts.accepted, (),
              trivial, .inl failed⟩⟩⟩
        | marker starts performed unmarked =>
            exact .inr ⟨_, starts.digested, .inr ⟨_, starts.resolved, .inr ⟨(), starts.accepted, (),
              trivial, .inr ⟨_, performed, .inl ⟨_, unmarked, rfl⟩⟩⟩⟩⟩
        | output starts performed marked undigested =>
            exact .inr ⟨_, starts.digested, .inr ⟨_, starts.resolved, .inr ⟨(), starts.accepted, (),
              trivial, .inr ⟨_, performed, .inr ⟨_, marked, (), trivial, _, undigested, rfl⟩⟩⟩⟩⟩

end Engine

end Uplift
