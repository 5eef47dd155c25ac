import Uplift.Config.Defaults
import Uplift.Config.Settings
import Uplift.Engine
import Uplift.Family.Chain
import Uplift.Family.Service

/-!
# Engines of the families

An engine is assembled from the steps of a family, its field names and its strategies, at once or by
way of the family as a value. The two families that the library knows are assembled from the
settings.
-/

set_option autoImplicit false

namespace Uplift

/-- Why an engine cannot be assembled. -/
inductive AssemblyError where
  | registry (error : RegistryError)
  | noStrategies
deriving DecidableEq

namespace AssemblyError

def message : AssemblyError → String
  | registry error => error.message
  | noStrategies => "VersionResolver requires at least one strategy"

end AssemblyError

namespace Engine

variable {δ : Type}

/-- Assembles an engine. Without strategies of its own a family has the standard ones. -/
def assemble (family : String) (steps : List (Step δ)) (fields : FieldNames)
    (strategies : Option (List Strategy)) (stampVersions rejectNewer : Bool) :
    Except AssemblyError (Engine δ) := do
  let registry ← (Registry.ofSteps steps).mapError AssemblyError.registry
  let strategies := strategies.getD (Strategy.standard fields)
  if strategies.isEmpty then .error .noStrategies
  else return ⟨family, fields, registry, strategies, stampVersions, rejectNewer⟩

end Engine

/-- A family of documents: the names of its fields, the strategies in the order in which they are
asked, and its steps. -/
structure DocumentFamily (δ : Type) where
  name : String
  fields : FieldNames
  strategies : List Strategy
  registry : Registry δ

namespace DocumentFamily

variable {δ : Type}

/-- Without field names of its own a family has the standard ones, and without strategies of its own
those that look into its fields. -/
def build (name : String) (steps : List (Step δ)) (fields : Option FieldNames)
    (strategies : Option (List Strategy)) : Except RegistryError (DocumentFamily δ) :=
  (Registry.ofSteps steps).map fun registry =>
    let fields := fields.getD .standard
    ⟨name, fields, strategies.getD (Strategy.standard fields), registry⟩

/-- The engine of a family that has a strategy. -/
def engine (family : DocumentFamily δ) (stampVersions rejectNewer : Bool) :
    Except AssemblyError (Engine δ) :=
  if family.strategies.isEmpty then .error .noStrategies
  else
    .ok ⟨family.name, family.fields, family.registry, family.strategies, stampVersions,
      rejectNewer⟩

end DocumentFamily

/-- The families of documents that the library knows. -/
inductive Family where
  | chain
  | service
deriving DecidableEq

namespace Family

def all : List Family := [chain, service]

def name : Family → String
  | chain => Chain.label
  | service => Service.label

def blueprints : Family → List Blueprint
  | chain => Chain.blueprints
  | service => Service.blueprints

def ofName? (name : String) : Option Family :=
  all.find? fun family => family.name = name

def unknownMessage (name : String) : String :=
  "Unknown document family: " ++ Text.quoted name ++ " (known: ["
    ++ ", ".intercalate (all.map fun family => Text.quoted family.name) ++ "])"

/-- A registry of blueprints, whose versions are positive and distinct. -/
def registryOf {δ : Type} (steps : List (Int × Step δ)) : Registry δ := ⟨steps, true⟩

/-- Taking the steps of a family one by one gives this registry, and no step is refused. -/
theorem ofSteps_blueprints {δ : Type} (carryOut : String → Treatment → δ → Logged Fault δ)
    (family : Family) :
    Registry.ofSteps (family.blueprints.map fun blueprint => blueprint.toStep carryOut) =
      .ok (registryOf (family.blueprints.map fun blueprint =>
        (blueprint.version, blueprint.toStep carryOut))) := by
  cases family <;> rfl

/-- The engine of a family under the given settings, for documents of a representation in which
treatments can be carried out. -/
def engine {δ : Type} (carryOut : FieldNames → String → Treatment → δ → Logged Fault δ)
    (settings : Settings) (family : Family) : Engine δ :=
  let fields := settings.fieldsFor family.name
  { family := family.name
    fields := fields
    registry := registryOf (family.blueprints.map fun blueprint =>
      (blueprint.version, blueprint.toStep (carryOut fields)))
    strategies := Strategy.standard fields
    stampVersions := settings.stampVersions
    rejectNewer := settings.rejectNewer }

end Family

end Uplift
