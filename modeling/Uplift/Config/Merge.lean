import Uplift.Fault

/-!
# Merging configurations

A configuration is a base with overrides on top. Objects are merged entry by entry at every depth;
anything else in the override replaces what the base has, provided that it has the same type, that
the base has null there, or that it is an array. Where both sides have a key, its place is named
before their values are looked at, and a key of too many digits has no name.
-/

set_option autoImplicit false

namespace Uplift.Config

/-- An override that does not fit what it overrides. -/
inductive MergeConflict where
  | types (place base override : String)
  | roots (base override : String)
  /-- The place of an override cannot be named, since its key has too many digits. -/
  | overlongKey
deriving DecidableEq

namespace MergeConflict

def message : MergeConflict → String
  | types place base override =>
      "Conflito de tipo em '" ++ place ++ "': " ++ base ++ " vs " ++ override
  | roots base override =>
      "Deep-merge requer dicts na raiz, recebido: " ++ base ++ " vs " ++ override
  | overlongKey => Fault.integerTooLong.message

end MergeConflict

def replaceable (base override : Value) : Bool :=
  match base with
  | .null => true
  | _ => override.isArray || base.typeName = override.typeName

/-- The place of a key, named by the keys on the way to it. -/
def placeOf (leading : String) (key : Scalar) : Except MergeConflict String :=
  if key.isWritable then .ok (leading ++ key.shown) else .error .overlongKey

mutual

def mergeValue (place : String) (base : Value) : Value → Except MergeConflict Value
  | .object overrides =>
      match base with
      | .object entries => (mergeEntries (place ++ ".") entries overrides).map Value.object
      | other =>
          if replaceable other (.object overrides) then .ok (.object overrides)
          else .error (.types place other.typeName (Value.object overrides).typeName)
  | override =>
      if replaceable base override then .ok override
      else .error (.types place base.typeName override.typeName)

def mergeEntries (leading : String) (base : Entries Value) :
    List (Scalar × Value) → Except MergeConflict (Entries Value)
  | [] => .ok base
  | (key, override) :: rest => do
      let value ←
        match base.lookup key with
        | some found => do
            let place ← placeOf leading key
            mergeValue place found override
        | none => .ok override
      mergeEntries leading (base.put key value) rest

end

def merge (base override : Value) : Except MergeConflict Value :=
  match base, override with
  | .object entries, .object overrides => (mergeEntries "" entries overrides).map Value.object
  | _, _ => .error (.roots base.typeName override.typeName)

end Uplift.Config
