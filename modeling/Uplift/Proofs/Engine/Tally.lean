import Uplift.Proofs.Engine.Chronicle
import Uplift.Proofs.Engine.FamilyPlan
import Uplift.Proofs.Engine.Settled
import Uplift.Proofs.Family.Tally

/-!
# Warnings of a migration

The warnings that a migration of a chain or a service ends with are the events of warning level that
it recorded. Neither the resolution nor the engine warns of anything, so each warning belongs to a
step that was applied.
-/

set_option autoImplicit false

namespace Uplift.Engine

open Resolution (Finds abstentions attempted resolved)

variable {δ : Type} [Representation δ] {engine : Engine δ} {context : Context} {document : δ}

/-- The step identifier that a version has, if it is short enough to have one. -/
abbrev idOf (engine : Engine δ) (version : Int) : String :=
  engine.family ++ ".v" ++ toString version

/-- A step warns under the identifier of its version. -/
def WarnsAs (engine : Engine δ) (entry : Int × Step δ) : Prop :=
  ∀ context document, (entry.2.apply context document).WarnsIn (· = engine.idOf entry.1)

/-- The resolution warns of nothing. -/
theorem warnsIn_finds {steps : String → Prop} {tree : Value} {strategies : List Strategy}
    {satisfied : Satisfied} {opening : Journal} (finds : Finds tree strategies satisfied opening) :
    ∀ note ∈ opening, note.WarnsIn steps := by
  cases finds with
  | intro consults found =>
      refine List.forall_mem_append.mpr ⟨List.forall_mem_map.mpr fun strategy _ => ?_, ?_⟩
      · simp [attempted, Level.name, Event.ownFields]
      · simp [attempted, resolved, Level.name, Event.ownFields]

theorem warnsIn_applying {steps : String → Prop} (sid description : String) :
    (applying sid description).WarnsIn steps := by
  simp [applying, Level.name, Event.ownFields]

/-- The steps of a plan warn under the identifiers of their versions, and the engine warns of
nothing. -/
theorem Records.warnsIn {plan : List (Int × Step δ)} {journal : Journal}
    {ended : Except (Int × Fault) δ}
    (records : Records engine context plan document journal ended)
    (warn : ∀ entry ∈ plan, engine.WarnsAs entry) :
    ∀ note ∈ journal, note.WarnsIn fun stepId =>
      ∃ version ∈ plan.map (·.1), stepId = engine.idOf version := by
  induction records with
  | nil => exact nofun
  | @gives version step rest document migrated sid journal ended named gives records ih =>
      obtain ⟨first, others⟩ := List.forall_mem_cons.mp warn
      refine List.forall_mem_cons.mpr ⟨warnsIn_applying _ _, List.forall_mem_append.mpr ⟨?_, ?_⟩⟩
      · exact fun note member => (first _ _ note member).imp fun _ same =>
          ⟨version, .head _, same⟩
      · refine fun note member => (ih others note member).imp fun _ warned => ?_
        obtain ⟨other, planned, same⟩ := warned
        exact ⟨other, .tail _ planned, same⟩
  | @fails version step rest document sid cause named fails =>
      obtain ⟨first, _⟩ := List.forall_mem_cons.mp warn
      refine List.forall_mem_cons.mpr ⟨warnsIn_applying _ _, List.forall_mem_append.mpr
        ⟨?_, ?_⟩⟩
      · exact fun note member => (first _ _ note member).imp fun _ same => ⟨version, .head _, same⟩
      · simp [stepFailed, Level.name, Event.ownFields]

/-- A migration that succeeds warns in the steps that it applied. -/
theorem migrate_warnsIn {result : MigrationResult δ}
    (migrated : (engine.migrate document).outcome = .ok result)
    (warn : ∀ declaration, ∀ entry ∈ Plan.outstanding engine.registry declaration,
      engine.WarnsAs entry) :
    (engine.migrate document).WarnsIn fun stepId =>
      ∃ version ∈ result.applied, stepId = engine.idOf version := by
  obtain ⟨last, completes⟩ := migrate_eq_ok_iff.mp migrated
  have typed : ∀ fault, (engine.migrate document).outcome ≠ .error (.untyped fault) := by
    rw [migrated]
    nofun
  obtain ⟨journal, ended, recounts⟩ := exists_recounts completes.starts.root typed
  obtain ⟨notes, outcome⟩ := migrate_of_recounts completes.starts.root typed recounts
  rw [migrated] at outcome
  unfold Logged.WarnsIn
  rw [notes]
  -- What a migration records is known in full; its plan alone runs what may warn.
  cases recounts with
  | malformed | unresolved | rejected | stepFailed => cases outcome
  | done finds accepts records =>
      have applied : result.applied = _ := Except.ok.inj outcome
      rw [applied]
      refine List.forall_mem_append.mpr ⟨List.forall_mem_append.mpr ⟨warnsIn_finds finds, ?_⟩, ?_⟩
      · refine List.forall_mem_cons.mpr ⟨?_, records.warnsIn (warn _)⟩
        simp [planned, Level.name, Event.ownFields]
      · simp [done, Level.name, Event.ownFields]

/-!
## Chains and services
-/

variable {settings : Settings} {family : Family}

theorem warnsAs_of_planned {declaration : Declaration} {entry : Int × Step Value}
    (planned : entry ∈ Plan.outstanding (ofTrees settings family).registry declaration) :
    (ofTrees settings family).WarnsAs entry := by
  obtain ⟨blueprint, known, rfl⟩ := exists_blueprint_of_planned planned
  have labelled : ∀ blueprint ∈ family.blueprints, blueprint.label = family.name := by
    cases family <;> decide
  intro context document
  have own := Blueprint.warnsIn_apply (settings.fieldsFor family.name)
    (fun _ member => family.warnsInStep_treatments known member) context document
  rw [Blueprint.stepId, labelled blueprint known] at own
  exact own

/-- The warnings of a run of a chain or a service that succeeds are the events of warning level that
it recorded, and they belong to versions that it applied. -/
theorem warnings_tally {document : Value} {run : Run Value} {result : MigrationResult Value}
    (ended : (ofTrees settings family).run document = .ok run) (succeeded : run.outcome = .ok result)
    (context : Context) :
    Journal.Tallies (run.journal.recorded context) run.journal.warnings ∧
      ∀ group ∈ run.journal.warnings, ∃ version ∈ result.applied,
        group.1 = family.name ++ ".v" ++ toString version := by
  obtain ⟨migrated, journal⟩ := outcome_of_run ended
  rw [succeeded] at migrated
  have warn := migrate_warnsIn migrated fun _ _ planned => warnsAs_of_planned planned
  rw [journal]
  exact ⟨Journal.tallies warn context, Journal.forall_mem_warnings warn⟩

/-- A chain that two of the steps warn of, and one of them twice. -/
def doubtfulChain : Value :=
  .object
    [(.text "version", .int 0),
      (.text "properties-filename", .text "a"), (.text "propertiesFilename", .text "b"),
      (.text "elements", .array
        [.object
          [(.text "element-type", .text "if"), (.text "type", .text "if"),
            (.text "properties", .object [(.text "priority", .text "high")])]])]

theorem warnings_tally_doubtfulChain :
    ∃ run result, ofChains.run doubtfulChain = .ok run ∧ run.outcome = .ok result ∧
      run.journal.warnings =
        [("chain.v101", ["Object already has field propertiesFilename",
            "Object already has field type"]),
          ("chain.v102",
            ["Failed to convert priority value from string to integer: 'high'"])] ∧
      Journal.Tallies (run.journal.recorded (ofChains.contextOf doubtfulChain))
        run.journal.warnings := by
  have seen : (ofChains.run doubtfulChain).toOption.map (fun run =>
      (run.outcome.toOption.isSome, run.journal.warnings)) = some (true,
        [("chain.v101", ["Object already has field propertiesFilename",
            "Object already has field type"]),
          ("chain.v102",
            ["Failed to convert priority value from string to integer: 'high'"])]) := by
    decide +kernel
  obtain ⟨run, ended, same⟩ := Outcome.exists_eq_ok_of_toOption_map seen
  obtain ⟨success, warnings⟩ := Prod.mk.inj same
  obtain ⟨result, succeeded⟩ : ∃ result, run.outcome = .ok result := by
    cases outcome : run.outcome with
    | ok result => exact ⟨result, rfl⟩
    | error error =>
        rw [outcome] at success
        cases success
  exact ⟨run, result, ended, succeeded, warnings, (warnings_tally ended succeeded _).1⟩

end Uplift.Engine
