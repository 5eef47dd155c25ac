import Uplift.Digest
import Uplift.Plan
import Uplift.Value.Outline
import Uplift.Versions.Resolution

/-!
# The migration engine

An engine brings documents of one family up to date. It finds out which versions a document has,
applies the steps that it lacks in ascending order, each to what the one before gave, and finally
marks the document with the versions it has now. The plan is made once: what a step does to the
version fields never changes which steps follow. `Engine.migrate` gives the result or the failure,
with the notes made up to that point; `Engine.run` turns migration errors into reports.
-/

set_option autoImplicit false

namespace Uplift

/-- What an engine is made of. -/
structure Engine (δ : Type) where
  family : String
  fields : FieldNames
  registry : Registry δ
  strategies : List Strategy
  stampVersions : Bool
  rejectNewer : Bool

/-- A migrated document. -/
structure MigrationResult (δ : Type) where
  family : String
  document : δ
  applied : List Int
  satisfied : Satisfied
  inputDigest : String
  outputDigest : String

namespace MigrationResult

variable {δ : Type}

def isUpToDate (result : MigrationResult δ) : Bool :=
  result.applied.isEmpty

end MigrationResult

/-- How a run ended. -/
inductive RunStatus where
  | migrated
  | upToDate
  | failed
deriving DecidableEq

namespace RunStatus

def name : RunStatus → String
  | migrated => "migrated"
  | upToDate => "up_to_date"
  | failed => "failed"

end RunStatus

namespace MigrationResult

variable {δ : Type}

def status (result : MigrationResult δ) : RunStatus :=
  if result.isUpToDate then .upToDate else .migrated

end MigrationResult

/-- The record of a run that ended with a result or with a migration error. -/
structure Run (δ : Type) where
  outcome : Except MigrationError (MigrationResult δ)
  journal : Journal

namespace Run

variable {δ : Type}

def status (run : Run δ) : RunStatus :=
  match run.outcome with
  | .ok result => result.status
  | .error _ => .failed

def isOk (run : Run δ) : Bool :=
  run.status != .failed

def result? (run : Run δ) : Option (MigrationResult δ) :=
  run.outcome.toOption

def report? (run : Run δ) : Option Report :=
  match run.outcome with
  | .ok _ => none
  | .error error => some error.report

end Run

namespace Engine

variable {δ : Type}

def stepId : String := "engine"

/-- The identity that a document has in a field: its text, unless that is empty. -/
def identity? (field : String) (document : Value) : Option String :=
  match document.get? field with
  | none => none
  | some value => if value.wording.isEmpty then none else some value.wording

def subjectOf (fields : FieldNames) (document : Value) : Subject :=
  ⟨identity? fields.id document, identity? fields.name document⟩

/-- The context of a run: the family, and the document once its root is known to be an object. -/
def contextOf (engine : Engine δ) (document : Value) : Context :=
  match document with
  | .object _ => ⟨engine.family, subjectOf engine.fields document, none⟩
  | _ => .ofFamily engine.family

/-- Reads the identity that a document has in a field. -/
def readIdentity (field : String) (document : Value) : Except Fault (Option String) :=
  match document.get? field with
  | none => .ok none
  | some value => value.asText.map fun text => if text.isEmpty then none else some text

/-- Makes the context of a run on an object. -/
def newContext (engine : Engine δ) (document : Value) : Except Fault Context := do
  let entityId ← readIdentity engine.fields.id document
  let entityName ← readIdentity engine.fields.name document
  return ⟨engine.family, ⟨entityId, entityName⟩, none⟩

/-- The given context, or else that of the document. -/
def contextIn (engine : Engine δ) (given : Option Context) (document : Value) :
    Except Fault Context :=
  match given with
  | some context => .ok context
  | none => engine.newContext document

/-- The step identifier of a version in this family. A version of more digits than are written has
none. -/
def versionId (engine : Engine δ) (version : Int) : Except Fault String :=
  if Scalar.isWritable (.int version) then .ok (engine.family ++ ".v" ++ toString version)
  else .error .integerTooLong

def rejected (unknown : List Int) : Note :=
  .event ⟨stepId, .error, "nonexistent migrations are present",
    [("unknown_versions", .array (unknown.map Value.int))]⟩

def planned (registered outstanding : List Int) : Note :=
  .event ⟨stepId, .info, "migration plan computed",
    [("registered_versions", .array (registered.map Value.int)),
      ("outstanding_versions", .array (outstanding.map Value.int))]⟩

def applying (sid description : String) : Note :=
  .event ⟨sid, .debug, "applying migration", [("description", .text description)]⟩

def stepFailed (sid : String) (cause : Fault) : Note :=
  .event ⟨sid, .error, "migration failed", [("exc_type", .text cause.name)]⟩

def done (applied : List Int) : Note :=
  .event ⟨stepId, .info, "migration done", [("applied_versions", .array (applied.map Value.int))]⟩

/-- Rejects a document that lists versions above all registered ones, if the engine is set to. -/
def guard (engine : Engine δ) (subject : Subject) (declaration : Declaration) :
    Logged Failure Unit :=
  let unknown := Plan.unknown engine.registry declaration
  if engine.rejectNewer && !unknown.isEmpty then do
    Logged.note (rejected unknown)
    Logged.fail (.migration (.newer engine.family unknown engine.registry.latest? subject))
  else pure ()

variable [Representation δ]

/-- Applies a step; what it gives back must be an object. -/
def applyStep (context : Context) (step : Step δ) (document : δ) : Logged Fault δ := do
  let migrated ← step.apply context document
  match Representation.tree migrated with
  | .object _ => pure migrated
  | other => Logged.fail (.resultNotObject other.kind)

/-- Applies one step of the plan, with the notes around it. -/
def perform (engine : Engine δ) (context : Context) (version : Int) (step : Step δ)
    (document : δ) : Logged Failure δ :=
  match engine.versionId version with
  | .error fault => Logged.fail (.untyped fault)
  | .ok sid =>
      let action := applyStep context step document
      let notes := applying sid step.description :: action.notes
      match action.outcome with
      | .ok migrated => ⟨notes, .ok migrated⟩
      | .error cause =>
          ⟨notes ++ [stepFailed sid cause],
            .error (.migration (.stepFailed engine.family version cause context.subject))⟩

def performAll (engine : Engine δ) (context : Context) :
    List (Int × Step δ) → δ → Logged Failure δ
  | [], document => pure document
  | (version, step) :: rest, document => do
      let migrated ← engine.perform context version step document
      engine.performAll context rest migrated

def stamp (engine : Engine δ) (declaration : Declaration) (applied : List Int)
    (document : δ) : Except Fault δ :=
  if engine.stampVersions && !applied.isEmpty then
    (Listing.written (declaration.restrictedTo engine.registry.versions ++ applied)).map fun text =>
      Representation.mark engine.fields text document
  else .ok document

def digestOf (document : δ) : Logged Failure String :=
  Logged.ofExcept
    ((Digest.ofObject .document (Representation.tree document)).mapError Failure.untyped)

/-- Only an object can be migrated. -/
def checkRoot (engine : Engine δ) (document : δ) : Except MigrationError Unit :=
  match Representation.tree document with
  | .object _ => .ok ()
  | other => .error (.invalidRoot engine.family other.kind)

/-- Brings a document up to date, in the given context or else in that of the document. -/
def migrateIn (engine : Engine δ) (given : Option Context) (document : δ) :
    Logged Failure (MigrationResult δ) := do
  Logged.ofExcept ((engine.checkRoot document).mapError Failure.migration)
  let tree := Representation.tree document
  let context ← Logged.ofExcept ((engine.contextIn given tree).mapError Failure.untyped)
  let inputDigest ← digestOf document
  let satisfied ← Resolution.resolve engine.family engine.strategies context.subject tree
  engine.guard context.subject satisfied.declaration
  let plan := Plan.outstanding engine.registry satisfied.declaration
  let applied := plan.map (·.1)
  Logged.note (planned engine.registry.versions applied)
  let migrated ← engine.performAll context plan document
  let stamped ←
    Logged.ofExcept
      ((engine.stamp satisfied.declaration applied migrated).mapError Failure.untyped)
  Logged.note (done applied)
  let outputDigest ← digestOf stamped
  pure
    { family := engine.family
      document := stamped
      applied := applied
      satisfied := satisfied
      inputDigest := inputDigest
      outputDigest := outputDigest }

def migrate (engine : Engine δ) (document : δ) : Logged Failure (MigrationResult δ) :=
  engine.migrateIn none document

/-- Brings a document up to date and reports a migration error instead of failing with it. The root
is looked at first, since only an object gives a context to migrate in. -/
def run (engine : Engine δ) (document : δ) : Except Fault (Run δ) :=
  match engine.checkRoot document with
  | .error error => .ok ⟨.error error, []⟩
  | .ok () => do
      let context ← engine.newContext (Representation.tree document)
      let action := engine.migrateIn (some context) document
      match action.outcome with
      | .ok result => .ok ⟨.ok result, action.notes⟩
      | .error (.migration error) => .ok ⟨.error error, action.notes⟩
      | .error (.untyped fault) => .error fault

end Engine

end Uplift
