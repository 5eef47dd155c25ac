import Uplift.Proofs.Engine.Delivery
import Uplift.Proofs.Engine.Execution
import Uplift.Proofs.Engine.Runs
import Uplift.Proofs.Plan
import Uplift.Proofs.Versions.Consultation

/-!
# Documents of newer products

An engine whose guard is on rejects a document exactly if a list in it declares versions that its
registry is behind of, and names these versions in ascending order. With the guard off no document
is rejected, and where there is nothing to reject the guard makes no difference.
-/

set_option autoImplicit false

namespace Uplift

variable {δ : Type}

namespace Registry

/-- A version is above all registered ones, and above zero if there are none. -/
def Behind (registry : Registry δ) (version : Int) : Prop :=
  (∀ registered ∈ registry.versions, registered < version) ∧
    (registry.versions = [] → 0 < version)

theorem latest_lt_iff {registry : Registry δ} {version : Int} :
    registry.latest?.getD 0 < version ↔ registry.Behind version := by
  constructor
  · intro above
    refine ⟨fun registered member => ?_, fun none => ?_⟩
    · exact Int.lt_of_le_of_lt (Plan.le_latest_of_mem_versions member) above
    · simpa [latest?, none] using above
  · intro behind
    unfold latest?
    cases last : registry.versions.getLast? with
    | none => exact behind.2 (List.getLast?_eq_none_iff.mp last)
    | some latest => exact behind.1 latest (List.mem_of_getLast? last)

end Registry

namespace Plan

variable {registry : Registry δ} {versions : List Int} {version : Int}

theorem mem_unknown :
    version ∈ unknown registry (.explicit versions) ↔
      version ∈ versions ∧ registry.Behind version := by
  simp [unknown, Declaration.above, Ascending.mem_ofList, Registry.latest_lt_iff]

theorem pairwise_unknown (registry : Registry δ) (versions : List Int) :
    (unknown registry (.explicit versions)).Pairwise (· < ·) :=
  Ascending.pairwise_ofList _

theorem unknown_ne_nil_iff :
    unknown registry (.explicit versions) ≠ [] ↔ ∃ version ∈ versions, registry.Behind version := by
  constructor
  · intro some
    obtain ⟨version, member⟩ := List.exists_mem_of_ne_nil _ some
    exact ⟨version, mem_unknown.mp member⟩
  · rintro ⟨version, both⟩
    exact List.ne_nil_of_mem (mem_unknown.mpr both)

end Plan

namespace Engine

/-- The same engine with its guard against newer documents on or off. -/
def guarded (engine : Engine δ) (on : Bool) : Engine δ := { engine with rejectNewer := on }

variable {engine : Engine δ} {subject : Subject} {declaration : Declaration}

/-- The guard is on and has something to reject. -/
def Rejects (engine : Engine δ) (declaration : Declaration) : Prop :=
  engine.rejectNewer = true ∧ Plan.unknown engine.registry declaration ≠ []

theorem guard_of_rejects (rejects : engine.Rejects declaration) :
    engine.guard subject declaration =
      ⟨[rejected (Plan.unknown engine.registry declaration)],
        .error (.migration (.newer engine.family (Plan.unknown engine.registry declaration)
          engine.registry.latest? subject))⟩ := by
  simp only [guard, rejects.1, Bool.true_and]
  rw [if_pos (by simpa using rejects.2)]
  rfl

theorem guard_of_accepts (accepts : ¬ engine.Rejects declaration) :
    engine.guard subject declaration = pure () := by
  unfold guard
  cases on : engine.rejectNewer with
  | false => rfl
  | true =>
      have none : Plan.unknown engine.registry declaration = [] :=
        Classical.byContradiction fun some => accepts ⟨on, some⟩
      rw [none]
      rfl

theorem versionId_guarded (on : Bool) (version : Int) :
    (engine.guarded on).versionId version = engine.versionId version := rfl

variable [Representation δ] {document : δ}

theorem perform_guarded (on : Bool) (context : Context) (version : Int) (step : Step δ)
    (document : δ) : (engine.guarded on).perform context version step document =
      engine.perform context version step document := by
  unfold perform
  rw [versionId_guarded]
  cases engine.versionId version <;> rfl

theorem performAll_guarded (on : Bool) (context : Context) (plan : List (Int × Step δ))
    (document : δ) :
    (engine.guarded on).performAll context plan document =
      engine.performAll context plan document := by
  induction plan generalizing document with
  | nil => rfl
  | cons entry rest ih =>
      obtain ⟨version, step⟩ := entry
      simp only [performAll, perform_guarded, ih]

theorem completion_guarded (on : Bool) (document : δ) (inputDigest : String)
    (satisfied : Satisfied) :
    (engine.guarded on).completion document inputDigest satisfied =
      engine.completion document inputDigest satisfied := by
  simp only [completion, performAll_guarded]
  rfl

/-- The guard has a part in nothing but whether a declaration is rejected. -/
theorem migrate_guarded (on : Bool) {inputDigest : String}
    (root : (Representation.tree document).isObject = true)
    (digested : digestion document = .ok inputDigest) :
    (engine.guarded on).migrate document = (do
      let satisfied ← Resolution.resolve engine.family engine.strategies
        (engine.contextOf (Representation.tree document)).subject (Representation.tree document)
      (engine.guarded on).guard (engine.contextOf (Representation.tree document)).subject
        satisfied.declaration
      engine.completion document inputDigest satisfied) := by
  rw [migrate_of_digested root digested]
  simp only [completion_guarded]
  rfl

/-- A document declares, in a list that is found, versions that the registry is behind of. -/
def Exceeds (engine : Engine δ) (document : δ) : Prop :=
  (Representation.tree document).isObject = true ∧
    ∃ versions source, engine.resolution document = .ok ⟨.explicit versions, source⟩ ∧
      ∃ version ∈ versions, engine.registry.Behind version

/-- What the guard decides about a document, and what it leaves alone. -/
structure Guards (engine : Engine δ) (document : δ) : Prop where
  /-- Nothing is noted behind the declaration but the rejection: no step is applied. -/
  rejects : ∀ versions source inputDigest, (Representation.tree document).isObject = true →
    digestion document = .ok inputDigest →
    engine.resolution document = .ok ⟨.explicit versions, source⟩ →
    (∃ version ∈ versions, engine.registry.Behind version) →
      ∃ unknown opening, unknown.Pairwise (· < ·) ∧
        (∀ version, version ∈ unknown ↔ version ∈ versions ∧ engine.registry.Behind version) ∧
        Resolution.Finds (Representation.tree document) engine.strategies
          ⟨.explicit versions, source⟩ opening ∧
        (engine.guarded true).migrate document =
          ⟨opening ++ [rejected unknown],
            .error (.migration (.newer engine.family unknown engine.registry.latest?
              (engine.contextOf (Representation.tree document)).subject))⟩
  invisible : ¬ engine.Exceeds document →
    (engine.guarded true).migrate document = (engine.guarded false).migrate document ∧
      (engine.guarded true).run document = (engine.guarded false).run document
  /-- A document that is too large for its digest is not looked at any further. -/
  undigested : ∀ on fault, (Representation.tree document).isObject = true →
    digestion document = .error fault →
    (engine.guarded on).migrate document = ⟨[], .error (.untyped fault)⟩
  newer_iff : (∃ family unknown latest subject, ((engine.guarded true).migrate document).outcome =
      .error (.migration (.newer family unknown latest subject))) ↔
    engine.Exceeds document ∧ ∃ inputDigest, digestion document = .ok inputDigest
  unguarded : ∀ family unknown latest subject, ((engine.guarded false).migrate document).outcome ≠
    .error (.migration (.newer family unknown latest subject))

theorem migrate_of_exceeds {versions : List Int} {source inputDigest : String}
    (root : (Representation.tree document).isObject = true)
    (digested : digestion document = .ok inputDigest)
    (resolved : engine.resolution document = .ok ⟨.explicit versions, source⟩)
    (behind : ∃ version ∈ versions, engine.registry.Behind version) :
    ∃ opening, Resolution.Finds (Representation.tree document) engine.strategies
        ⟨.explicit versions, source⟩ opening ∧
      (engine.guarded true).migrate document =
        ⟨opening ++ [rejected (Plan.unknown engine.registry (.explicit versions))],
          .error (.migration (.newer engine.family
            (Plan.unknown engine.registry (.explicit versions)) engine.registry.latest?
            (engine.contextOf (Representation.tree document)).subject))⟩ := by
  obtain ⟨opening, finds⟩ := Resolution.finds_of_resolve resolved
  refine ⟨opening, finds, ?_⟩
  have rejecting : (engine.guarded true).guard
      (engine.contextOf (Representation.tree document)).subject (.explicit versions) = _ :=
    guard_of_rejects ⟨rfl, Plan.unknown_ne_nil_iff.mpr behind⟩
  rw [migrate_guarded true root digested, Resolution.resolve_of_finds engine.family finds,
    Logged.bind_eq_of_ok _ rfl, rejecting, Logged.bind_eq_of_error _ rfl]
  rfl

theorem guard_of_not_exceeds {satisfied : Satisfied} (on : Bool)
    (root : (Representation.tree document).isObject = true)
    (resolved : engine.resolution document = .ok satisfied)
    (within : ¬ engine.Exceeds document) (subject : Subject) :
    (engine.guarded on).guard subject satisfied.declaration = pure () := by
  obtain ⟨declaration, source⟩ := satisfied
  refine guard_of_accepts fun rejects => ?_
  cases declaration with
  | legacy bound => exact rejects.2 rfl
  | explicit versions =>
      exact within ⟨root, versions, source, resolved, Plan.unknown_ne_nil_iff.mp rejects.2⟩

/-- Where there is nothing to reject it makes no difference whether the guard is on. -/
theorem migrate_of_not_exceeds (within : ¬ engine.Exceeds document) (on other : Bool) :
    (engine.guarded on).migrate document = (engine.guarded other).migrate document := by
  cases root : (Representation.tree document).isObject with
  | false =>
      rw [migrate_of_not_isObject root, migrate_of_not_isObject root]
      rfl
  | true =>
      cases digested : digestion document with
      | error fault => rw [migrate_of_undigested root digested, migrate_of_undigested root digested]
      | ok inputDigest =>
          rw [migrate_guarded on root digested, migrate_guarded other root digested]
          cases resolved : engine.resolution document with
          | error failure =>
              rw [Logged.bind_eq_of_error _ resolved, Logged.bind_eq_of_error _ resolved]
          | ok satisfied =>
              rw [Logged.bind_eq_of_ok _ resolved, Logged.bind_eq_of_ok _ resolved,
                guard_of_not_exceeds on root resolved within,
                guard_of_not_exceeds other root resolved within]

/-- An engine whose guard is off rejects no document. -/
theorem migrate_unguarded_ne_newer {family : String} {unknown : List Int} {latest : Option Int}
    {subject : Subject} : ((engine.guarded false).migrate document).outcome ≠
      .error (.migration (.newer family unknown latest subject)) := by
  rw [Ne, migrate_eq_error_iff]
  intro breaks
  cases breaks with
  | resolution _ _ unresolved => exact Resolution.resolve_ne_newer unresolved
  | guard _ _ _ rejected =>
      unfold inspection at rejected
      rw [guard_of_accepts fun rejects => Bool.false_ne_true rejects.1] at rejected
      cases rejected
  | step _ failed =>
      obtain ⟨_, _, _, _, _, _, notPerformed⟩ := performAll_eq_error_iff.mp failed
      rcases perform_eq_error_iff.mp notPerformed with ⟨_, same⟩ | ⟨_, _, _, same⟩
      · cases same
      · cases same

theorem guards (engine : Engine δ) (document : δ) : engine.Guards document := by
  constructor
  case rejects =>
    intro versions source inputDigest root digested resolved behind
    obtain ⟨opening, finds, migrated⟩ := migrate_of_exceeds root digested resolved behind
    exact ⟨_, opening, Plan.pairwise_unknown _ _, fun _ => Plan.mem_unknown, finds, migrated⟩
  case invisible =>
    intro within
    have same := migrate_of_not_exceeds within true false
    refine ⟨same, ?_⟩
    rw [run_eq, run_eq, same]
  case undigested =>
    intro on fault root undigested
    exact migrate_of_undigested root undigested
  case newer_iff =>
    constructor
    · rintro ⟨family, unknown, latest, subject, rejected⟩
      have exceeds : engine.Exceeds document := by
        refine Classical.byContradiction fun within => ?_
        rw [migrate_of_not_exceeds within true false] at rejected
        exact migrate_unguarded_ne_newer rejected
      refine ⟨exceeds, ?_⟩
      cases digested : digestion document with
      | ok inputDigest => exact ⟨inputDigest, rfl⟩
      | error fault =>
          rw [migrate_of_undigested exceeds.1 digested] at rejected
          cases rejected
    · rintro ⟨⟨root, versions, source, resolved, behind⟩, inputDigest, digested⟩
      obtain ⟨_, _, migrated⟩ := migrate_of_exceeds root digested resolved behind
      rw [migrated]
      exact ⟨_, _, _, _, rfl⟩
  case unguarded => exact fun family unknown latest subject => migrate_unguarded_ne_newer

def newerService (size : Int) : Value :=
  .object [(.text "migrations", .text "[200, 102, 150, 200]"), (.text "size", .int size)]

theorem guards_newerService :
    ((ofServices.guarded true).migrate (newerService 0)).outcome =
        .error (.migration (.newer "service" [150, 200] (some 102) ⟨none, none⟩)) ∧
      ofServices.Exceeds (newerService (tenTo Fault.digitLimit)) ∧
      (ofServices.guarded true).migrate (newerService (tenTo Fault.digitLimit)) =
        ⟨[], .error (.untyped .integerTooLong)⟩ := by
  have resolved (size : Int) : ofServices.resolution (newerService size) =
      .ok ⟨.explicit [200, 102, 150, 200], "explicit-list"⟩ := rfl
  have behind {version : Int} : ofServices.registry.Behind version ↔ 102 < version :=
    Registry.latest_lt_iff.symm
  have some : ∃ version ∈ [200, 102, 150, 200], ofServices.registry.Behind version :=
    ⟨200, .head _, behind.mpr (by decide)⟩
  refine ⟨?_, ⟨rfl, _, _, resolved _, some⟩, ?_⟩
  · have writable : (newerService 0).isWritable = true := by
      decide +kernel
    have digested : digestion (newerService 0) = .ok (Digest.hex (newerService 0)) :=
      (digestion_eq_ok_iff rfl).mpr ⟨writable, rfl⟩
    obtain ⟨unknown, opening, ascending, members, _, migrated⟩ :=
      (guards ofServices (newerService 0)).rejects _ _ _ rfl digested (resolved 0) some
    have same : unknown = [150, 200] := by
      refine Ascending.eq_of_mem_iff ascending (by decide) fun version => ?_
      rw [members, behind]
      simp only [List.mem_cons, List.not_mem_nil, or_false]
      omega
    rw [migrated, same]
    rfl
  · have unwritable : (newerService (tenTo Fault.digitLimit)).isWritable = false := by
      decide +kernel
    have undigested : digestion (newerService (tenTo Fault.digitLimit)) = .error .integerTooLong :=
      (digestion_eq_error_iff rfl).mpr ⟨unwritable, rfl⟩
    exact (guards ofServices (newerService (tenTo Fault.digitLimit))).undigested true _ rfl
      undigested

end Engine

end Uplift
