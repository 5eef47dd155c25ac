import Uplift.Engine
import Uplift.Proofs.Journal

/-!
# Carrying out a plan

`Runs` says what carrying out a plan means, without an engine: every step is applied once, in order,
to what the step before it gave, and each gives an object. An engine completes a plan exactly if it
runs, and otherwise fails with the first step that does not give an object; what follows that step
in the plan has no part in the outcome and leaves no note.
-/

set_option autoImplicit false

namespace Uplift

variable {δ : Type} [Representation δ]

/-- A step succeeds on a document and gives an object. -/
def Step.Gives (context : Context) (step : Step δ) (document migrated : δ) : Prop :=
  (step.apply context document).outcome = .ok migrated ∧
    (Representation.tree migrated).isObject = true

/-- A step fails on a document, or gives something that is no object. -/
inductive Step.Fails (context : Context) (step : Step δ) (document : δ) : Fault → Prop where
  | raised {cause : Fault} : (step.apply context document).outcome = .error cause →
      Fails context step document cause
  | noObject {migrated : δ} : (step.apply context document).outcome = .ok migrated →
      (Representation.tree migrated).isObject = false →
      Fails context step document (.resultNotObject (Representation.tree migrated).kind)

/-- The steps of a plan give a document, each applied to what the one before it gave. -/
inductive Plan.Runs (context : Context) : List (Int × Step δ) → δ → δ → Prop where
  | nil {document : δ} : Runs context [] document document
  | cons {version : Int} {step : Step δ} {rest : List (Int × Step δ)}
      {document migrated last : δ} :
      step.Gives context document migrated → Runs context rest migrated last →
      Runs context ((version, step) :: rest) document last

/-- A plan gets as far as one of its steps: those before it run, and give the document that the
step is applied to. -/
structure Plan.Reaches (context : Context) (plan before : List (Int × Step δ)) (version : Int)
    (step : Step δ) (document reached : δ) : Prop where
  place : ∃ rest, plan = before ++ (version, step) :: rest
  runs : Plan.Runs context before document reached

/-- What every step of a plan keeps is kept by the plan. -/
theorem Plan.Runs.preserves {context : Context} {plan : List (Int × Step δ)} {document last : δ}
    (runs : Plan.Runs context plan document last) (kept : δ → Prop)
    (step : ∀ entry ∈ plan, ∀ before after, entry.2.Gives context before after → kept before →
      kept after) (start : kept document) : kept last := by
  induction runs with
  | nil => exact start
  | cons gives _ ih =>
      obtain ⟨first, others⟩ := List.forall_mem_cons.mp step
      exact ih others (first _ _ gives start)

/-- A plan runs exactly if its first part does, and its second part on what that gives. -/
theorem Plan.runs_append_iff {context : Context} {before after : List (Int × Step δ)}
    {document last : δ} :
    Plan.Runs context (before ++ after) document last ↔
      ∃ reached, Plan.Runs context before document reached ∧
        Plan.Runs context after reached last := by
  constructor
  · intro runs
    induction before generalizing document with
    | nil => exact ⟨document, .nil, runs⟩
    | cons entry rest ih =>
        cases runs with
        | cons gives runs =>
            obtain ⟨reached, first, second⟩ := ih runs
            exact ⟨reached, .cons gives first, second⟩
  · rintro ⟨reached, first, second⟩
    induction first with
    | nil => exact second
    | cons gives _ ih => exact .cons gives (ih second)

theorem Plan.Runs.isObject {context : Context} {plan : List (Int × Step δ)} {document last : δ}
    (runs : Plan.Runs context plan document last)
    (root : (Representation.tree document).isObject = true) :
    (Representation.tree last).isObject = true :=
  runs.preserves (fun reached => (Representation.tree reached).isObject = true)
    (fun _ _ _ _ gives _ => gives.2) root

namespace Engine

variable {engine : Engine δ} {context : Context} {step : Step δ} {document migrated : δ}

theorem applyStep_eq_ok_iff :
    (applyStep context step document).outcome = .ok migrated ↔
      step.Gives context document migrated := by
  unfold applyStep Step.Gives
  rw [Logged.bind_outcome_ok]
  constructor
  · intro ended
    obtain ⟨value, applied, checked⟩ := ended
    cases tree : Representation.tree value <;> simp only [tree] at checked
    · cases checked
    · cases checked
    · cases checked
      exact ⟨applied, by rw [tree]; rfl⟩
  · intro ended
    obtain ⟨applied, isObject⟩ := ended
    refine ⟨migrated, applied, ?_⟩
    cases tree : Representation.tree migrated with
    | scalar value => simp [tree, Value.isObject] at isObject
    | array items => simp [tree, Value.isObject] at isObject
    | object entries => rfl

theorem applyStep_eq_error_iff {cause : Fault} :
    (applyStep context step document).outcome = .error cause ↔
      step.Fails context document cause := by
  unfold applyStep
  rw [Logged.bind_outcome_error]
  constructor
  · intro ended
    rcases ended with raised | ⟨value, applied, checked⟩
    · exact .raised raised
    · have notObject : (Representation.tree value).isObject = false ∧
          cause = .resultNotObject (Representation.tree value).kind := by
        cases tree : Representation.tree value <;> simp only [tree] at checked <;> cases checked <;>
          exact ⟨rfl, rfl⟩
      rw [notObject.2]
      exact .noObject applied notObject.1
  · intro ended
    rcases ended with raised | @⟨value, applied, notObject⟩
    · exact .inl raised
    · refine .inr ⟨value, applied, ?_⟩
      cases tree : Representation.tree value with
      | scalar inner => rfl
      | array items => rfl
      | object entries => simp [tree, Value.isObject] at notObject

abbrev Named (plan : List (Int × Step δ)) : Prop :=
  ∀ entry ∈ plan, Scalar.isWritable (.int entry.1) = true

theorem perform_eq_ok_iff {version : Int} :
    (engine.perform context version step document).outcome = .ok migrated ↔
      Scalar.isWritable (.int version) = true ∧ step.Gives context document migrated := by
  rw [← applyStep_eq_ok_iff]
  unfold perform versionId
  cases writable : Scalar.isWritable (.int version) with
  | false => simp
  | true =>
      simp only [if_true, true_and]
      cases applied : (applyStep context step document).outcome <;> simp

theorem perform_eq_error_iff {version : Int} {failure : Failure} :
    (engine.perform context version step document).outcome = .error failure ↔
      (Scalar.isWritable (.int version) = false ∧ failure = .untyped .integerTooLong) ∨
        (Scalar.isWritable (.int version) = true ∧ ∃ cause, step.Fails context document cause ∧
          failure = .migration (.stepFailed engine.family version cause context.subject)) := by
  simp only [← applyStep_eq_error_iff]
  unfold perform versionId
  cases writable : Scalar.isWritable (.int version) with
  | false => simp [eq_comm]
  | true =>
      simp only [if_true, true_and]
      cases applied : (applyStep context step document).outcome <;> simp [eq_comm]

theorem perform_of_fails (engine : Engine δ) {version : Int} {cause : Fault}
    (writable : Scalar.isWritable (.int version) = true)
    (fails : step.Fails context document cause) :
    (engine.perform context version step document).outcome =
      .error (.migration (.stepFailed engine.family version cause context.subject)) :=
  perform_eq_error_iff.mpr (.inr ⟨writable, cause, fails, rfl⟩)

theorem perform_of_unnamed (engine : Engine δ) {version : Int}
    (unwritable : Scalar.isWritable (.int version) = false) :
    (engine.perform context version step document).outcome = .error (.untyped .integerTooLong) :=
  perform_eq_error_iff.mpr (.inl ⟨unwritable, rfl⟩)

/-- An engine completes a plan exactly if its steps run and all of them have identifiers. -/
theorem performAll_eq_ok_iff {plan : List (Int × Step δ)} {last : δ} :
    (engine.performAll context plan document).outcome = .ok last ↔
      Named plan ∧ Plan.Runs context plan document last := by
  induction plan generalizing document with
  | nil =>
      constructor
      · intro finished
        cases finished
        exact ⟨nofun, .nil⟩
      · intro ended
        obtain ⟨_, runs⟩ := ended
        cases runs
        rfl
  | cons entry rest ih =>
      obtain ⟨version, step⟩ := entry
      rw [performAll, Logged.bind_outcome_ok]
      simp only [perform_eq_ok_iff, ih, Named, List.forall_mem_cons]
      constructor
      · intro ended
        obtain ⟨migrated, ⟨named, gives⟩, restNamed, runs⟩ := ended
        exact ⟨⟨named, restNamed⟩, .cons gives runs⟩
      · intro ended
        obtain ⟨⟨named, restNamed⟩, runs⟩ := ended
        cases runs with
        | cons gives runs => exact ⟨_, ⟨named, gives⟩, restNamed, runs⟩

/-- An engine that does not complete a plan fails with the first step that it does not perform. -/
theorem performAll_eq_error_iff {plan : List (Int × Step δ)} {failure : Failure} :
    (engine.performAll context plan document).outcome = .error failure ↔
      ∃ before version step reached,
        Plan.Reaches context plan before version step document reached ∧ Named before ∧
        (engine.perform context version step reached).outcome = .error failure := by
  induction plan generalizing document with
  | nil =>
      constructor
      · intro finished
        cases finished
      · intro ended
        obtain ⟨before, version, step, reached, ⟨⟨rest, split⟩, _⟩, _⟩ := ended
        simp at split
  | cons entry rest ih =>
      obtain ⟨version, step⟩ := entry
      rw [performAll, Logged.bind_outcome_error]
      constructor
      · intro ended
        rcases ended with failed | ⟨migrated, performed, failed⟩
        · exact ⟨[], version, step, document, ⟨⟨rest, rfl⟩, .nil⟩, nofun, failed⟩
        · obtain ⟨named, gives⟩ := perform_eq_ok_iff.mp performed
          obtain ⟨before, later, laterStep, reached, ⟨⟨after, rfl⟩, runs⟩, beforeNamed, failed⟩ :=
            ih.mp failed
          exact ⟨(version, step) :: before, later, laterStep, reached,
            ⟨⟨after, rfl⟩, .cons gives runs⟩, List.forall_mem_cons.mpr ⟨named, beforeNamed⟩, failed⟩
      · intro ended
        obtain ⟨before, later, laterStep, reached, reaches, beforeNamed, failed⟩ := ended
        obtain ⟨⟨after, split⟩, runs⟩ := reaches
        cases runs with
        | nil =>
            cases split
            exact .inl failed
        | cons gives runs =>
            cases split
            obtain ⟨named, restNamed⟩ := List.forall_mem_cons.mp beforeNamed
            exact .inr ⟨_, perform_eq_ok_iff.mpr ⟨named, gives⟩,
              ih.mpr ⟨_, later, laterStep, reached, ⟨⟨after, rfl⟩, runs⟩, restNamed, failed⟩⟩

/-- What follows a step that is not performed has no part in the outcome and leaves no note. -/
theorem performAll_eq_of_reaches {before rest : List (Int × Step δ)} {version : Int} {reached : δ}
    {failure : Failure} (runs : Plan.Runs context before document reached) (named : Named before)
    (failed : (engine.perform context version step reached).outcome = .error failure) :
    engine.performAll context (before ++ (version, step) :: rest) document =
      engine.performAll context (before ++ [(version, step)]) document := by
  induction runs with
  | nil =>
      simp only [List.nil_append, performAll]
      rw [Logged.bind_eq_of_error _ failed, Logged.bind_eq_of_error _ failed]
  | @cons first firstStep _ _ migrated _ gives _ ih =>
      obtain ⟨firstNamed, restNamed⟩ := List.forall_mem_cons.mp named
      have performed : (engine.perform context first firstStep _).outcome = .ok migrated :=
        perform_eq_ok_iff.mpr ⟨firstNamed, gives⟩
      simp only [List.cons_append, performAll]
      rw [Logged.bind_eq_of_ok _ performed, Logged.bind_eq_of_ok _ performed,
        ih restNamed failed]

end Engine

end Uplift
