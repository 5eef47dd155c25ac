import Uplift.Proofs.Engine.SecondPass
import Uplift.Proofs.Engine.Settled
import Uplift.Proofs.Plan.Bounded
import Uplift.Proofs.Rewrite.ContentField
import Uplift.Proofs.Versions.Declared

/-!
# Upgrades in stages

A document that is first migrated by an older product, which lacks the steps behind some version,
and then by the newer one ends up as if the newer one had migrated it at once. The marker that
stands in it in between tells the newer product where to go on, and the steps behind the version do
the same whether a document is marked or not.
-/

set_option autoImplicit false

namespace Uplift

/-- Of a list only registered versions are declared; a legacy number may be any. -/
def Declaration.Within (registered : List Int) : Declaration → Prop
  | explicit versions => ∀ version ∈ versions, version ∈ registered
  | legacy _ => True

/-- A step does the same in every run, and to documents that are marked. -/
def Step.IgnoresMarker (fields : FieldNames) (step : Step Value) : Prop :=
  ∀ context other text before after, step.Gives context before after →
    step.Gives other (Marker.put fields text before) (Marker.put fields text after)

theorem Plan.Runs.put {fields : FieldNames} {context : Context} {plan : List (Int × Step Value)}
    {document last : Value} (runs : Plan.Runs context plan document last)
    (ignores : ∀ entry ∈ plan, entry.2.IgnoresMarker fields) (other : Context) (text : String) :
    Plan.Runs other plan (Marker.put fields text document) (Marker.put fields text last) := by
  induction runs with
  | nil => exact .nil
  | cons gives _ ih =>
      obtain ⟨first, others⟩ := List.forall_mem_cons.mp ignores
      exact .cons (first _ _ _ _ _ gives) (ih others)

namespace Engine

/-- The engine of a product that has the steps up to a version only. -/
def upTo (bound : Int) (engine : Engine Value) : Engine Value :=
  { engine with registry := engine.registry.upTo bound }

variable {engine : Engine Value} {bound : Int} {document last reached : Value}
  {declaration : Declaration} {result first : MigrationResult Value}

theorem Standard.upTo (standard : engine.Standard) (bound : Int) :
    (engine.upTo bound).Standard :=
  ⟨standard.strategies, standard.registry.upTo bound⟩

theorem inspection_of_within (within : declaration.Within engine.registry.versions) :
    engine.inspection document declaration = .ok () := by
  cases declaration with
  | explicit versions => exact inspection_of_registered within
  | legacy number =>
      unfold inspection guard
      simp [Plan.unknown]

/-- If the older product has anything to do then nothing is declared that it does not know. -/
theorem contains_eq_false_of_behind (standard : engine.Standard)
    (within : declaration.Within (engine.upTo bound).registry.versions)
    (outstanding : Plan.outstanding (engine.upTo bound).registry declaration ≠ [])
    {version : Int} (behind : bound < version) : declaration.contains version = false := by
  cases declaration with
  | explicit versions =>
      rw [Declaration.contains, List.contains_eq_mem, decide_eq_false_iff_not]
      intro declared
      have known := (Registry.mem_versions_upTo.mp (within version declared)).2
      omega
  | legacy number =>
      obtain ⟨entry, planned⟩ := List.exists_mem_of_ne_nil _ outstanding
      obtain ⟨registered, undeclared⟩ :=
        Plan.mem_outstanding_versions.mp (List.mem_map_of_mem (f := (·.1)) planned)
      have positive := (standard.upTo bound).registry.versions_pos registered
      have known := (Registry.mem_versions_upTo.mp registered).2
      simp only [Declaration.contains, Bool.and_eq_false_iff, decide_eq_false_iff_not]
        at undeclared ⊢
      omega

/-- The plan for a document that the older product has marked. -/
theorem outstanding_again (engine : Engine Value)
    (declared : ∀ version, bound < version → declaration.contains version = false) :
    Plan.outstanding engine.registry (.explicit (engine.upTo bound).registry.versions) =
      (Plan.outstanding engine.registry declaration).filter (fun entry => bound < entry.1) := by
  unfold Plan.outstanding
  rw [List.filter_filter]
  refine List.filter_congr fun entry member => ?_
  have registered : entry.1 ∈ engine.registry.versions := by
    rw [← Registry.map_fst_ordered]
    exact List.mem_map_of_mem member
  by_cases behind : bound < entry.1
  · have unknown : ¬ entry.1 ∈ (engine.upTo bound).registry.versions := fun known => by
      have within := (Registry.mem_versions_upTo.mp known).2
      omega
    rw [declared _ behind]
    simp [Declaration.contains, unknown, behind]
  · have known : entry.1 ∈ (engine.upTo bound).registry.versions :=
      Registry.mem_versions_upTo.mpr ⟨registered, by omega⟩
    simp [Declaration.contains, known, behind]

/-- What the plan of a migration gives up to a version, from which the rest of the plan goes on. -/
theorem Completes.reaches (completes : engine.Completes document last result) (bound : Int) :
    ∃ reached, (engine.upTo bound).execution document result.satisfied.declaration = .ok reached ∧
      Plan.Runs (engine.contextOf document)
        ((Plan.outstanding engine.registry result.satisfied.declaration).filter
          fun entry => bound < entry.1) reached last := by
  obtain ⟨named, runs⟩ := performAll_eq_ok_iff.mp completes.performed
  rw [← Plan.outstanding_split bound] at named runs
  obtain ⟨reached, before, after⟩ := Plan.runs_append_iff.mp runs
  refine ⟨reached, performAll_eq_ok_iff.mpr ⟨?_, before⟩, after⟩
  exact fun entry member => named entry (List.mem_append_left _ member)

/-- The result of a migration that started on a declaration and of which the plan gave `last`. -/
def resultOf (engine : Engine Value) (satisfied : Satisfied) (inputDigest : String)
    (last : Value) : MigrationResult Value where
  family := engine.family
  document := engine.delivered satisfied.declaration last
  applied := (Plan.outstanding engine.registry satisfied.declaration).map (·.1)
  satisfied := satisfied
  inputDigest := inputDigest
  outputDigest := Digest.hex (engine.delivered satisfied.declaration last)

/-- A migration that starts, and of which the plan runs, completes if what it has to write down can
be written. -/
theorem Starts.completes {satisfied : Satisfied} {digest : String}
    (starts : engine.Starts document satisfied digest)
    (performed : engine.execution document satisfied.declaration = .ok last)
    (versions : ∀ version ∈ engine.registry.versions, Scalar.isWritable (.int version) = true)
    (writable : last.isWritable = true) :
    engine.Completes document last (engine.resultOf satisfied digest last) where
  starts := starts
  performed := performed
  marked := marking_eq_delivered versions
  digested := digestion_delivered ((performAll_eq_ok_iff.mp performed).2.isObject starts.root)
    writable
  applied := rfl
  family := rfl

theorem Completes.isWritable_version (completes : engine.Completes document last result)
    (marked : engine.isMarked result.satisfied.declaration = true) {version : Int}
    (registered : version ∈ engine.registry.versions) :
    Scalar.isWritable (.int version) = true :=
  Listing.isWritable_iff.mp ((marking_eq_ok_iff.mp completes.marked).1 marked) version
    (Plan.mem_restrictedTo_append_outstanding.mpr registered)

/-- What the second stage delivers is what is delivered at once. -/
theorem delivered_again (stamping : engine.stampVersions = true)
    (marked : engine.isMarked declaration = true) (last : Value) :
    engine.delivered (.explicit (engine.upTo bound).registry.versions)
        (Marker.put engine.fields (Listing.format (engine.upTo bound).registry.versions) last) =
      engine.delivered declaration last := by
  rw [delivered_of_isMarked marked]
  by_cases complete : Plan.outstanding engine.registry
      (.explicit (engine.upTo bound).registry.versions) = []
  · have same : (engine.upTo bound).registry.versions = engine.registry.versions := by
      refine Ascending.eq_of_mem_iff (Registry.pairwise_versions _) (Registry.pairwise_versions _)
        fun version => ⟨fun known => (Registry.mem_versions_upTo.mp known).1, fun registered => ?_⟩
      simpa [Declaration.contains] using Plan.outstanding_eq_nil_iff.mp complete version registered
    rw [delivered_of_outstanding_eq_nil complete, same]
  · rw [delivered_of_isMarked (isMarked_eq_true_iff.mpr ⟨stamping, complete⟩), Marker.put_put]

/-- The newer product starts on what the older one has marked, and finds the versions of the older
one in it. -/
theorem Completes.starts_newer
    (firstCompletes : (engine.upTo bound).Completes document reached first) (standard : engine.Standard)
    (marked : (engine.upTo bound).isMarked first.satisfied.declaration = true) :
    ∃ again, engine.Starts first.document again first.outputDigest ∧
      again.declaration = .explicit (engine.upTo bound).registry.versions := by
  obtain ⟨again, resolved, declared⟩ :=
    firstCompletes.resolution_of_isMarked (standard.upTo bound) marked
  refine ⟨again, ?_, declared⟩
  constructor
  case root =>
    rw [firstCompletes.document_eq]
    exact isObject_delivered firstCompletes.isObject_last
  case digested => exact firstCompletes.digested
  case resolved => exact resolved
  case accepted =>
    rw [declared]
    exact inspection_of_registered fun version known => (Registry.mem_versions_upTo.mp known).1

section Stages

variable (completes : engine.Completes document last result)
  (keeps : ∀ entry ∈ Plan.outstanding engine.registry result.satisfied.declaration,
    entry.2.KeepsWritable)
  (within : result.satisfied.declaration.Within (engine.upTo bound).registry.versions)
  (outstanding : Plan.outstanding (engine.upTo bound).registry result.satisfied.declaration ≠ [])

include completes keeps

theorem Completes.isWritable_of_runs {context : Context} {plan : List (Int × Step Value)}
    (part : plan ⊆ Plan.outstanding engine.registry result.satisfied.declaration)
    (runs : Plan.Runs context plan document reached) : reached.isWritable = true :=
  runs.isWritable (fun entry planned => keeps entry (part planned))
    ((digestion_eq_ok_iff completes.starts.root).mp completes.starts.digested).1

include within

/-- The older product migrates a document that the newer one migrates. -/
theorem Completes.firstStage
    (marked : engine.isMarked result.satisfied.declaration = true)
    (performed : (engine.upTo bound).execution document result.satisfied.declaration =
      .ok reached) :
    (engine.upTo bound).Completes document reached
      ((engine.upTo bound).resultOf result.satisfied result.inputDigest reached) := by
  have starts : (engine.upTo bound).Starts document result.satisfied result.inputDigest :=
    ⟨completes.starts.root, completes.starts.digested, completes.starts.resolved,
      inspection_of_within within⟩
  refine starts.completes performed (fun version known =>
    completes.isWritable_version marked (Registry.mem_versions_upTo.mp known).1) ?_
  refine completes.isWritable_of_runs keeps ?_ (performAll_eq_ok_iff.mp performed).2
  change Plan.outstanding (engine.registry.upTo bound) _ ⊆ _
  rw [Plan.outstanding_upTo]
  exact List.filter_sublist.subset

include outstanding

/-- The newer product goes on from what the older one delivered. -/
theorem Completes.secondStage {first : MigrationResult Value} (standard : engine.Standard)
    (marked : engine.isMarked result.satisfied.declaration = true)
    (firstCompletes : (engine.upTo bound).Completes document reached first)
    (sameDeclaration : first.satisfied.declaration = result.satisfied.declaration)
    (rest : Plan.Runs (engine.contextOf document)
      ((Plan.outstanding engine.registry result.satisfied.declaration).filter
        fun entry => bound < entry.1) reached last)
    (ignores : ∀ entry ∈ Plan.outstanding engine.registry result.satisfied.declaration,
      bound < entry.1 → entry.2.IgnoresMarker engine.fields) :
    ∃ marked second, engine.Completes first.document marked second ∧
      second.document = result.document ∧
        second.applied = ((Plan.outstanding engine.registry result.satisfied.declaration).filter
          fun entry => bound < entry.1).map (·.1) := by
  have stamping := (isMarked_eq_true_iff.mp marked).1
  have firstMarked : (engine.upTo bound).isMarked first.satisfied.declaration = true := by
    rw [sameDeclaration]
    exact isMarked_eq_true_iff.mpr ⟨stamping, outstanding⟩
  obtain ⟨again, starts, declared⟩ := firstCompletes.starts_newer standard firstMarked
  have document_eq : first.document = Marker.put engine.fields
      (Listing.format (engine.upTo bound).registry.versions) reached :=
    firstCompletes.document_eq.trans (delivered_of_isMarked firstMarked)
  have plan : Plan.outstanding engine.registry again.declaration =
      (Plan.outstanding engine.registry result.satisfied.declaration).filter
        fun entry => bound < entry.1 := by
    rw [declared]
    exact outstanding_again engine fun version behind =>
      contains_eq_false_of_behind standard within outstanding behind
  have performed : engine.execution first.document again.declaration =
      .ok (Marker.put engine.fields
        (Listing.format (engine.upTo bound).registry.versions) last) := by
    obtain ⟨named, _⟩ := performAll_eq_ok_iff.mp completes.performed
    rw [execution, plan, document_eq, performAll_eq_ok_iff]
    refine ⟨fun entry member => named entry (List.mem_filter.mp member).1, rest.put ?_ _ _⟩
    intro entry member
    obtain ⟨planned, behind⟩ := List.mem_filter.mp member
    exact ignores entry planned (of_decide_eq_true behind)
  have writable : last.isWritable = true :=
    completes.isWritable_of_runs keeps (List.Subset.refl _)
      (performAll_eq_ok_iff.mp completes.performed).2
  refine ⟨_, _, starts.completes performed
    (fun version => completes.isWritable_version marked) (Marker.isWritable_put _ writable), ?_, ?_⟩
  · rw [completes.document_eq, ← delivered_again stamping marked last, resultOf, declared]
  · rw [resultOf, plan]

end Stages

/-- A migration in two stages gives what a migration at once does. -/
theorem migrate_upTo (standard : engine.Standard) (stamping : engine.stampVersions = true)
    (migrated : (engine.migrate document).outcome = .ok result)
    (within : result.satisfied.declaration.Within (engine.upTo bound).registry.versions)
    (keeps : ∀ entry ∈ Plan.outstanding engine.registry result.satisfied.declaration,
      entry.2.KeepsWritable)
    (ignores : Plan.outstanding (engine.upTo bound).registry result.satisfied.declaration ≠ [] →
      ∀ entry ∈ Plan.outstanding engine.registry result.satisfied.declaration,
        bound < entry.1 → entry.2.IgnoresMarker engine.fields) :
    ∃ first second, ((engine.upTo bound).migrate document).outcome = .ok first ∧
      (engine.migrate first.document).outcome = .ok second ∧
        second.document = result.document ∧ second.outputDigest = result.outputDigest ∧
          first.applied ++ second.applied = result.applied := by
  obtain ⟨last, completes⟩ := migrate_eq_ok_iff.mp migrated
  by_cases idle : Plan.outstanding (engine.upTo bound).registry result.satisfied.declaration = []
  · have starts : (engine.upTo bound).Starts document result.satisfied result.inputDigest :=
      ⟨completes.starts.root, completes.starts.digested, completes.starts.resolved,
        inspection_of_within within⟩
    exact ⟨_, result, migrate_of_outstanding_eq_nil starts idle, migrated, rfl, rfl, rfl⟩
  · have plan := Plan.outstanding_split bound engine.registry result.satisfied.declaration
    have marked : engine.isMarked result.satisfied.declaration = true :=
      isMarked_eq_true_iff.mpr ⟨stamping, fun none => idle
        (List.append_eq_nil_iff.mp (plan.trans none)).1⟩
    obtain ⟨reached, performed, rest⟩ := completes.reaches bound
    have first := completes.firstStage keeps within marked performed
    obtain ⟨marking, second, secondCompletes, sameDocument, applied⟩ :=
      completes.secondStage keeps within idle standard marked first rfl rest (ignores idle)
    refine ⟨_, second, migrate_eq_ok_iff.mpr ⟨_, first⟩, migrate_eq_ok_iff.mpr ⟨_, secondCompletes⟩,
      sameDocument, ?_, ?_⟩
    · have digested := secondCompletes.digested
      rw [sameDocument, completes.digested] at digested
      exact (Except.ok.inj digested).symm
    · have joined := congrArg (List.map (·.1)) plan
      rw [List.map_append] at joined
      rw [applied, completes.applied]
      exact joined

/-!
## Stages of the known families
-/

variable {settings : Settings} {family : Family}

/-- The steps of a family up to a version make the engine that has no others. -/
theorem assemble_upTo (settings : Settings) (family : Family) (bound : Int) :
    assemble family.name
        ((family.blueprints.filter fun blueprint => blueprint.version ≤ bound).map fun blueprint =>
          blueprint.toStep (Rewrite.onTree (settings.fieldsFor family.name)))
        (settings.fieldsFor family.name) none settings.stampVersions settings.rejectNewer =
      .ok ((ofTrees settings family).upTo bound) := by
  have valid := (standard_family Rewrite.onTree settings family).registry.upTo bound
  have steps : (family.blueprints.filter fun blueprint => blueprint.version ≤ bound).map
        (fun blueprint => blueprint.toStep (Rewrite.onTree (settings.fieldsFor family.name))) =
      ((ofTrees settings family).registry.upTo bound).steps.map (·.2) := by
    change _ = (List.filter _ (List.map _ _)).map _
    rw [List.filter_map, List.map_map]
    rfl
  refine assemble_eq_ok_iff.mpr ⟨nofun, _, ?_, rfl⟩
  rw [steps]
  exact Registry.ofSteps_of_valid valid

theorem ignoresMarker_of_planned {entry : Int × Step Value}
    (apart : Marker.Apart (settings.fieldsFor family.name))
    (planned : entry ∈ Plan.outstanding (ofTrees settings family).registry declaration)
    (behind : 101 < entry.1) : entry.2.IgnoresMarker (settings.fieldsFor family.name) := by
  obtain ⟨blueprint, known, rfl⟩ := exists_blueprint_of_planned planned
  intro context other text before after gives
  have migrates := Blueprint.apply_eq_ok_iff.mp gives.1
  exact ⟨Blueprint.Migrates.put apart (Family.staysInContent known behind) migrates,
    Marker.isObject_put gives.2⟩

/-- The versions that a family has up to a bound. -/
def versionsUpTo (family : Family) (bound : Int) : List Int :=
  (family.blueprints.filter fun blueprint => blueprint.version ≤ bound).map (·.version)

theorem mem_versions_upTo_iff {version : Int} :
    version ∈ ((ofTrees settings family).upTo bound).registry.versions ↔
      version ∈ versionsUpTo family bound := by
  rw [Registry.mem_versions]
  change version ∈ (List.filter _ (List.map _ _)).map _ ↔ _
  rw [List.filter_map, List.map_map]
  rfl

/-- No family has a version before the first. -/
theorem first_le_of_mem_versionsUpTo {version : Int}
    (member : version ∈ versionsUpTo family bound) : 101 ≤ bound := by
  have first : ∀ blueprint ∈ family.blueprints, 101 ≤ blueprint.version := by
    cases family <;> decide
  obtain ⟨blueprint, kept, _⟩ := List.mem_map.mp member
  obtain ⟨known, within⟩ := List.mem_filter.mp kept
  exact Int.le_trans (first blueprint known) (of_decide_eq_true within)

/-- Under the standard field names, a product that marks documents gives from a document that an
older product has migrated before what it gives at once. The older product has the steps of the
family up to some version, and in a list no other versions are declared. -/
theorem migrate_staged (standard : settings.fieldsFor family.name = .standard)
    (stamping : settings.stampVersions = true) (bound : Int)
    (migrated : ((ofTrees settings family).migrate document).outcome = .ok result)
    (within : result.satisfied.declaration.Within (versionsUpTo family bound)) :
    ∃ older first second,
      assemble family.name
          ((family.blueprints.filter fun blueprint => blueprint.version ≤ bound).map
            fun blueprint => blueprint.toStep (Rewrite.onTree .standard))
          .standard none true settings.rejectNewer = .ok older ∧
        (older.migrate document).outcome = .ok first ∧
        ((ofTrees settings family).migrate first.document).outcome = .ok second ∧
          second.document = result.document ∧ second.outputDigest = result.outputDigest ∧
            first.applied ++ second.applied = result.applied := by
  have assembled := assemble_upTo settings family bound
  rw [standard, stamping] at assembled
  have known : result.satisfied.declaration.Within
      ((ofTrees settings family).upTo bound).registry.versions := by
    cases declared : result.satisfied.declaration with
    | explicit versions =>
        rw [declared] at within
        exact fun version listed => mem_versions_upTo_iff.mpr (within version listed)
    | legacy number => trivial
  have apart : Marker.Apart (settings.fieldsFor family.name) := by
    rw [standard]
    exact Marker.apart_standard
  have ignores (outstanding : Plan.outstanding ((ofTrees settings family).upTo bound).registry
        result.satisfied.declaration ≠ []) (entry : Int × Step Value)
      (planned : entry ∈ Plan.outstanding (ofTrees settings family).registry
        result.satisfied.declaration) (behind : bound < entry.1) :
      entry.2.IgnoresMarker (settings.fieldsFor family.name) := by
    obtain ⟨early, earlyPlanned⟩ := List.exists_mem_of_ne_nil _ outstanding
    have registered := (Plan.mem_outstanding_versions.mp
      (List.mem_map_of_mem (f := (·.1)) earlyPlanned)).1
    have first := first_le_of_mem_versionsUpTo (mem_versions_upTo_iff.mp registered)
    exact ignoresMarker_of_planned apart planned (Int.lt_of_le_of_lt first behind)
  obtain ⟨first, second, stages⟩ := migrate_upTo
    (standard_family Rewrite.onTree settings family) stamping migrated known
    (fun _ planned => keepsWritable_of_planned planned) ignores
  exact ⟨_, first, second, assembled, stages⟩

theorem migrate_staged_conditionalChain :
    ∃ older first second result, (ofChains.migrate conditionalChain).outcome = .ok result ∧
      result.satisfied.declaration = .legacy 0 ∧ result.applied = [101, 102, 103] ∧
      assemble "chain"
          ((Chain.blueprints.filter fun blueprint => blueprint.version ≤ 102).map
            fun blueprint => blueprint.toStep (Rewrite.onTree .standard))
          .standard none true false = .ok older ∧
        (older.migrate conditionalChain).outcome = .ok first ∧
        (ofChains.migrate first.document).outcome = .ok second ∧
          second.document = result.document ∧ second.outputDigest = result.outputDigest ∧
            first.applied ++ second.applied = [101, 102, 103] := by
  have seen : (ofChains.migrate conditionalChain).outcome.toOption.map
      (fun result => (result.applied, result.satisfied.declaration)) =
        some ([101, 102, 103], .legacy 0) := by
    decide +kernel
  obtain ⟨result, migrated, same⟩ := Outcome.exists_eq_ok_of_toOption_map seen
  obtain ⟨applied, declared⟩ := Prod.mk.inj same
  have within : result.satisfied.declaration.Within (versionsUpTo .chain 102) := by
    rw [declared]
    trivial
  obtain ⟨older, first, second, assembled, stages⟩ := migrate_staged rfl rfl 102 migrated within
  rw [applied] at stages
  exact ⟨older, first, second, result, migrated, declared, applied, assembled, stages⟩

end Engine

end Uplift
