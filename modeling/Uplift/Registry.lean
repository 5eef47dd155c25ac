import Uplift.Step
import Uplift.Value.Shown
import Uplift.Versions.Ascending

/-!
# The registry of steps

A registry holds the steps of a family, one for each version. Steps are added in any order and
always listed by ascending version. A sealed registry takes no more steps.
-/

set_option autoImplicit false

namespace Uplift

/-- Why a step is not taken. -/
inductive RegistryError where
  | sealed
  | invalidVersion
  | duplicateVersion (version : Int)
deriving DecidableEq

namespace RegistryError

def message : RegistryError → String
  | sealed => "registry is sealed"
  | invalidVersion => "step.version must be a positive integer"
  | duplicateVersion version => "Duplicate migration version: " ++ toString version

end RegistryError

/-- Steps with their versions, in the order of registration. -/
structure Registry (δ : Type) where
  steps : List (Int × Step δ)
  isSealed : Bool

namespace Registry

variable {δ : Type}

/-- A call that may change a registry. -/
inductive Call (δ : Type) where
  | add (step : Step δ)
  | close

def empty : Registry δ := ⟨[], false⟩

def step? (registry : Registry δ) (version : Int) : Option (Step δ) :=
  (registry.steps.find? fun entry => entry.1 = version).map (·.2)

def add (registry : Registry δ) (step : Step δ) : Except RegistryError (Registry δ) :=
  if registry.isSealed then .error .sealed
  else
    match step.number? with
    | none => .error .invalidVersion
    | some version =>
        if (registry.step? version).isSome then .error (.duplicateVersion version)
        else .ok { registry with steps := registry.steps ++ [(version, step)] }

def close (registry : Registry δ) : Registry δ := { registry with isSealed := true }

/-- What a call makes of a registry; adding a step may be refused. -/
def answer (registry : Registry δ) : Call δ → Except RegistryError (Registry δ)
  | .add step => registry.add step
  | .close => .ok registry.close

/-- The registry as later calls find it. -/
def after (registry : Registry δ) (call : Call δ) : Registry δ :=
  match registry.answer call with
  | .ok changed => changed
  | .error _ => registry

/-- The registry that comes about by calls, one after the other, from an empty one. -/
def ofCalls (calls : List (Call δ)) : Registry δ :=
  calls.foldl after empty

def ofSteps (steps : List (Step δ)) : Except RegistryError (Registry δ) :=
  (steps.foldlM add empty).map close

def versions (registry : Registry δ) : List Int :=
  Ascending.ofList (registry.steps.map (·.1))

/-- The steps with their versions, in ascending order. -/
def ordered (registry : Registry δ) : List (Int × Step δ) :=
  registry.versions.filterMap fun version =>
    (registry.step? version).map fun step => (version, step)

def latest? (registry : Registry δ) : Option Int :=
  registry.versions.getLast?

def size (registry : Registry δ) : Nat := registry.steps.length

def find? (registry : Registry δ) (key : Value) : Except Fault (Option (Step δ)) :=
  match key with
  | .scalar key =>
      .ok ((registry.steps.find? fun entry => key.sameKey (.int entry.1)).map (·.2))
  | container => .error (.unusableKey container.typeName)

/-- Gets the step under a value; that there is none is a fault. -/
def get (registry : Registry δ) (key : Value) : Except Fault (Step δ) := do
  match ← registry.find? key with
  | some step => return step
  | none => .error (.missingKey key.quoted)

end Registry

end Uplift
