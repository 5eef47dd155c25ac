import Uplift.Proofs.Engine.Guard

/-!
# What a journal tells

The journal of a migration tells the whole run in order: which strategies abstained and which one
decided, the rejection or the plan, every step up to the first that fails, each with its own notes,
and how the run ended. `Recounts` says so for every way in which a migration can end, and no other
journal comes about.
-/

set_option autoImplicit false

namespace Uplift.Engine

open Resolution (Abstain Consults Finds abstentions unreadable)

variable {δ : Type} [Representation δ] {engine : Engine δ} {context : Context} {document : δ}
  {step : Step δ} {version : Int} {sid : String}

/-- The steps of a plan are applied in order up to the first one that fails. Each leaves the note
that it is applied, and then its own. -/
inductive Records (engine : Engine δ) (context : Context) :
    List (Int × Step δ) → δ → Journal → Except (Int × Fault) δ → Prop where
  | nil (document : δ) : Records engine context [] document [] (.ok document)
  | gives {version : Int} {step : Step δ} {rest : List (Int × Step δ)} {document migrated : δ}
      {sid : String} {journal : Journal} {ended : Except (Int × Fault) δ} :
      engine.versionId version = .ok sid → step.Gives context document migrated →
      Records engine context rest migrated journal ended →
      Records engine context ((version, step) :: rest) document
        (applying sid step.description :: (step.apply context document).notes ++ journal) ended
  | fails {version : Int} {step : Step δ} {rest : List (Int × Step δ)} {document : δ}
      {sid : String} {cause : Fault} :
      engine.versionId version = .ok sid → step.Fails context document cause →
      Records engine context ((version, step) :: rest) document
        (applying sid step.description :: (step.apply context document).notes ++
          [stepFailed sid cause]) (.error (version, cause))

/-- The journals of migrations of an object, each with how the migration ends: with the versions
that were applied, or with an error. -/
inductive Recounts (engine : Engine δ) (document : δ) :
    Journal → Except MigrationError (List Int) → Prop where
  | malformed {before : List Strategy} {strategy : Strategy} {field hint : String} {raw : Value}
      {token : Option String} :
      Consults (Representation.tree document) engine.strategies before strategy →
      strategy.attempt (Representation.tree document) =
        .error (.malformed field raw token hint) →
      Recounts engine document (abstentions before ++ [unreadable strategy field])
        (.error (.malformed field raw token hint
          (engine.contextOf (Representation.tree document)).subject))
  | unresolved : Abstain (Representation.tree document) engine.strategies →
      Recounts engine document (abstentions engine.strategies)
        (.error (.unresolved engine.family (engine.strategies.map Strategy.name)
          (engine.contextOf (Representation.tree document)).subject))
  | rejected {satisfied : Satisfied} {opening : Journal} :
      Finds (Representation.tree document) engine.strategies satisfied opening →
      engine.Rejects satisfied.declaration →
      Recounts engine document
        (opening ++ [rejected (Plan.unknown engine.registry satisfied.declaration)])
        (.error (.newer engine.family (Plan.unknown engine.registry satisfied.declaration)
          engine.registry.latest? (engine.contextOf (Representation.tree document)).subject))
  | stepFailed {satisfied : Satisfied} {opening steps : Journal} {version : Int} {cause : Fault} :
      Finds (Representation.tree document) engine.strategies satisfied opening →
      ¬ engine.Rejects satisfied.declaration →
      Records engine (engine.contextOf (Representation.tree document))
        (Plan.outstanding engine.registry satisfied.declaration) document steps
        (.error (version, cause)) →
      Recounts engine document
        (opening ++
          planned engine.registry.versions (engine.lacking satisfied.declaration) :: steps)
        (.error (.stepFailed engine.family version cause
          (engine.contextOf (Representation.tree document)).subject))
  | done {satisfied : Satisfied} {opening steps : Journal} {last : δ} :
      Finds (Representation.tree document) engine.strategies satisfied opening →
      ¬ engine.Rejects satisfied.declaration →
      Records engine (engine.contextOf (Representation.tree document))
        (Plan.outstanding engine.registry satisfied.declaration) document steps (.ok last) →
      Recounts engine document
        (opening ++
          planned engine.registry.versions (engine.lacking satisfied.declaration) :: steps ++
            [done (engine.lacking satisfied.declaration)])
        (.ok (engine.lacking satisfied.declaration))

theorem applyStep_notes (context : Context) (step : Step δ) (document : δ) :
    (applyStep context step document).notes = (step.apply context document).notes := by
  unfold applyStep
  cases applied : (step.apply context document).outcome with
  | error cause => rw [Logged.bind_eq_of_error _ applied]
  | ok migrated =>
      rw [Logged.bind_eq_of_ok _ applied]
      cases Representation.tree migrated <;> simp [Logged.fail]

theorem perform_giving {migrated : δ} (named : engine.versionId version = .ok sid)
    (gives : step.Gives context document migrated) :
    engine.perform context version step document =
      ⟨applying sid step.description :: (step.apply context document).notes, .ok migrated⟩ := by
  unfold perform
  simp only [named, applyStep_eq_ok_iff.mpr gives, applyStep_notes]

theorem perform_failing {cause : Fault} (named : engine.versionId version = .ok sid)
    (fails : step.Fails context document cause) :
    engine.perform context version step document =
      ⟨applying sid step.description :: (step.apply context document).notes ++
          [stepFailed sid cause],
        .error (.migration (.stepFailed engine.family version cause context.subject))⟩ := by
  unfold perform
  simp only [named, applyStep_eq_error_iff.mpr fails, applyStep_notes]

theorem performAll_of_records {plan : List (Int × Step δ)} {journal : Journal}
    {ended : Except (Int × Fault) δ}
    (records : Records engine context plan document journal ended) :
    engine.performAll context plan document =
      ⟨journal, ended.mapError fun failing =>
        .migration (.stepFailed engine.family failing.1 failing.2 context.subject)⟩ := by
  induction records with
  | nil document => rfl
  | gives named gives _ ih =>
      have performed := perform_giving named gives
      rw [performAll, performed, Logged.bind_eq_of_ok _ rfl, ih]
  | fails named fails =>
      have performed := perform_failing named fails
      rw [performAll, performed, Logged.bind_eq_of_error _ rfl]
      rfl

/-- A plan is recorded unless one of its steps has no identifier. -/
theorem exists_records {plan : List (Int × Step δ)}
    (typed : ∀ fault, (engine.performAll context plan document).outcome ≠ .error (.untyped fault)) :
    ∃ journal ended, Records engine context plan document journal ended := by
  induction plan generalizing document with
  | nil => exact ⟨_, _, .nil document⟩
  | cons entry rest ih =>
      obtain ⟨version, step⟩ := entry
      cases named : engine.versionId version with
      | error fault =>
          have unnamed : (engine.perform context version step document).outcome =
              .error (.untyped fault) := by
            unfold perform
            rw [named]
            rfl
          refine absurd ?_ (typed fault)
          rw [performAll, Logged.bind_eq_of_error _ unnamed]
      | ok sid =>
          cases applied : (applyStep context step document).outcome with
          | error cause => exact ⟨_, _, .fails named (applyStep_eq_error_iff.mp applied)⟩
          | ok migrated =>
              have gives := applyStep_eq_ok_iff.mp applied
              rw [performAll, perform_giving named gives, Logged.bind_eq_of_ok _ rfl] at typed
              obtain ⟨journal, ended, records⟩ := ih typed
              exact ⟨_, _, .gives named gives records⟩

variable {satisfied : Satisfied} {inputDigest : String} {steps : Journal}

/-- Behind the steps there is one more note, unless the migration fails without a report. -/
theorem finish_cases (engine : Engine δ) (inputDigest : String) (satisfied : Satisfied) (last : δ) :
    (∃ result, engine.finish inputDigest satisfied last =
        ⟨[done (engine.lacking satisfied.declaration)], .ok result⟩ ∧
      result.applied = engine.lacking satisfied.declaration) ∨
      ∃ fault, (engine.finish inputDigest satisfied last).outcome = .error (.untyped fault) := by
  unfold finish
  cases marked : engine.marking satisfied.declaration last with
  | error fault => exact .inr ⟨fault, rfl⟩
  | ok final =>
      rw [Logged.bind_eq_of_ok _ rfl, Logged.bind_eq_of_ok _ rfl]
      cases digested : digestion final with
      | error fault =>
          rw [digestOf_of_error digested]
          exact .inr ⟨fault, rfl⟩
      | ok outputDigest =>
          rw [digestOf_of_ok digested]
          exact .inl ⟨_, rfl, rfl⟩

/-- Behind a declaration that is found and not rejected the plan is carried out. -/
theorem migrate_of_finds {opening : Journal} (root : (Representation.tree document).isObject = true)
    (digested : digestion document = .ok inputDigest)
    (finds : Finds (Representation.tree document) engine.strategies satisfied opening)
    (accepts : ¬ engine.Rejects satisfied.declaration) :
    engine.migrate document =
      ⟨opening ++ (engine.completion document inputDigest satisfied).notes,
        (engine.completion document inputDigest satisfied).outcome⟩ := by
  rw [migrate_of_digested root digested, Resolution.resolve_of_finds engine.family finds,
    Logged.bind_eq_of_ok _ rfl, guard_of_accepts accepts, Logged.bind_eq_of_ok _ rfl]
  rfl

theorem completion_of_failed {cause : Fault}
    (records : Records engine (engine.contextOf (Representation.tree document))
      (Plan.outstanding engine.registry satisfied.declaration) document steps
      (.error (version, cause))) :
    engine.completion document inputDigest satisfied =
      ⟨planned engine.registry.versions (engine.lacking satisfied.declaration) :: steps,
        .error (.migration (.stepFailed engine.family version cause
          (engine.contextOf (Representation.tree document)).subject))⟩ := by
  rw [completion, performAll_of_records records]
  rfl

theorem completion_of_done {last : δ}
    (records : Records engine (engine.contextOf (Representation.tree document))
      (Plan.outstanding engine.registry satisfied.declaration) document steps (.ok last)) :
    engine.completion document inputDigest satisfied =
      ⟨planned engine.registry.versions (engine.lacking satisfied.declaration) :: steps ++
          (engine.finish inputDigest satisfied last).notes,
        (engine.finish inputDigest satisfied last).outcome⟩ := by
  rw [completion, performAll_of_records records]
  rfl

theorem exists_digest (root : (Representation.tree document).isObject = true)
    (typed : ∀ fault, (engine.migrate document).outcome ≠ .error (.untyped fault)) :
    ∃ inputDigest, digestion document = .ok inputDigest := by
  cases digested : digestion document with
  | ok inputDigest => exact ⟨inputDigest, rfl⟩
  | error fault =>
      rw [migrate_of_undigested root digested] at typed
      exact absurd rfl (typed fault)

/-- A migration that ends as it is recounted leaves the journal that recounts it. -/
theorem migrate_of_recounts (root : (Representation.tree document).isObject = true)
    (typed : ∀ fault, (engine.migrate document).outcome ≠ .error (.untyped fault))
    {journal : Journal} {ended : Except MigrationError (List Int)}
    (recounts : engine.Recounts document journal ended) :
    (engine.migrate document).notes = journal ∧
      (engine.migrate document).outcome.map (·.applied) = ended.mapError Failure.migration := by
  obtain ⟨inputDigest, digested⟩ := exists_digest root typed
  cases recounts with
  | malformed consults malformed =>
      rw [migrate_of_digested root digested,
        Resolution.resolve_of_malformed engine.family consults malformed]
      exact ⟨rfl, rfl⟩
  | unresolved abstain =>
      rw [migrate_of_digested root digested, Resolution.resolve_of_abstain engine.family abstain]
      exact ⟨rfl, rfl⟩
  | rejected finds rejects =>
      rw [migrate_of_digested root digested, Resolution.resolve_of_finds engine.family finds,
        Logged.bind_eq_of_ok _ rfl, guard_of_rejects rejects]
      exact ⟨rfl, rfl⟩
  | stepFailed finds accepts records =>
      rw [migrate_of_finds root digested finds accepts, completion_of_failed records]
      exact ⟨rfl, rfl⟩
  | @done satisfied opening steps last finds accepts records =>
      rw [migrate_of_finds root digested finds accepts, completion_of_done records] at typed ⊢
      rcases finish_cases engine inputDigest satisfied last with finished | ⟨fault, failed⟩
      · obtain ⟨result, finished, applied⟩ := finished
        rw [finished]
        exact ⟨(List.append_assoc _ _ _).symm, congrArg Except.ok applied⟩
      · exact absurd failed (typed fault)

theorem exists_recounts (root : (Representation.tree document).isObject = true)
    (typed : ∀ fault, (engine.migrate document).outcome ≠ .error (.untyped fault)) :
    ∃ journal ended, engine.Recounts document journal ended := by
  obtain ⟨inputDigest, digested⟩ := exists_digest root typed
  cases Resolution.ends (Representation.tree document) engine.strategies with
  | abstain abstain => exact ⟨_, _, .unresolved abstain⟩
  | malformed consults malformed => exact ⟨_, _, .malformed consults malformed⟩
  | @fault _ _ fault consults failed =>
      refine absurd ?_ (typed fault)
      rw [migrate_of_digested root digested,
        Resolution.resolve_of_fault engine.family consults failed]
      rfl
  | @finds satisfied opening finds =>
      by_cases rejects : engine.Rejects satisfied.declaration
      · exact ⟨_, _, .rejected finds rejects⟩
      · rw [migrate_of_finds root digested finds rejects, completion,
          Logged.bind_eq_of_ok _ rfl] at typed
        obtain ⟨steps, ended, records⟩ := exists_records fun fault failed =>
          typed fault (Logged.bind_outcome_of_error _ failed)
        cases ended with
        | ok last => exact ⟨_, _, .done finds rejects records⟩
        | error failing => exact ⟨_, _, .stepFailed finds rejects records⟩

end Uplift.Engine
