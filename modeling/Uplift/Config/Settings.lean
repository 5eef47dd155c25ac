import Uplift.Digest
import Uplift.Fields
import Uplift.Scalar.Order

/-!
# Settings

The settings that a configuration stands for. Sections that are absent or null say nothing; what
they do say is checked and never converted. Families are checked first, in order, and for each of
them its section, the names of its fields, and their values; then the flags of the engine.
-/

set_option autoImplicit false

namespace Uplift

/-- What is wrong with a value of a configuration. -/
inductive InvalidSetting where
  | notMapping (key : String)
  | notBool (flag : String)
  | unknownFields (family : String) (keys : List Scalar)
  | emptyFieldName (family field : String)
deriving DecidableEq

namespace InvalidSetting

def message : InvalidSetting → String
  | notMapping key => "'" ++ key ++ "' must be a mapping"
  | notBool flag => "engine." ++ flag ++ " must be a bool"
  | unknownFields family keys =>
      "families." ++ family ++ ".fields has unknown keys: ["
        ++ ", ".intercalate (keys.map Scalar.quoted) ++ "]"
  | emptyFieldName family field =>
      "families." ++ family ++ ".fields." ++ field ++ " must be a non-empty string"

end InvalidSetting

/-- Why a configuration gives no settings. -/
inductive SettingsError where
  | invalid (setting : InvalidSetting)
  | fault (fault : Fault)

/-- The settings of the engines. -/
structure Settings where
  stampVersions : Bool
  rejectNewer : Bool
  /-- The field names of each family that the configuration names, in order. -/
  families : Entries FieldNames
  configDigest : String

namespace Settings

/-- The field names of a family; a family that is not named has the standard ones. -/
def fieldsFor (settings : Settings) (family : String) : FieldNames :=
  (settings.families.lookup (.text family)).getD .standard

/-- The entries of a section; an absent or null section has none. -/
def sectionOf (config : Entries Value) (key : Scalar) : Except SettingsError (Entries Value) :=
  match config.lookup key with
  | none => .ok []
  | some .null => .ok []
  | some (.object entries) => .ok entries
  | some _ => .error (.invalid (.notMapping key.shown))

def fieldKeys : List String := ["content", "migrations", "version", "id", "name"]

def setField (fields : FieldNames) (key value : String) : FieldNames :=
  if key = "content" then { fields with content := value }
  else if key = "migrations" then { fields with migrations := value }
  else if key = "version" then { fields with version := value }
  else if key = "id" then { fields with id := value }
  else if key = "name" then { fields with name := value }
  else fields

def isFieldKey : Scalar → Bool
  | .text key => fieldKeys.contains key
  | _ => false

/-- Reads the values of a `fields` section in order; each must be a text that is not blank. -/
def readFields (family : String) :
    FieldNames → List (Scalar × Value) → Except SettingsError FieldNames
  | fields, [] => .ok fields
  | fields, (key, value) :: rest =>
      match value with
      | .text name =>
          if Text.isBlank name then .error (.invalid (.emptyFieldName family key.shown))
          else readFields family (setField fields key.shown name) rest
      | _ => .error (.invalid (.emptyFieldName family key.shown))

def familyFields (family : Scalar) (entries : Entries Value) :
    Except SettingsError FieldNames := do
  let raw ← sectionOf entries (.text "fields")
  let unknown ←
    (Scalar.sorted ((raw.map (·.1)).filter fun key => !isFieldKey key)).mapError
      SettingsError.fault
  if unknown.isEmpty then readFields family.shown .standard raw
  else .error (.invalid (.unknownFields family.shown unknown))

def readFamilies (families : Entries Value) :
    List (Scalar × Value) → Except SettingsError (Entries FieldNames)
  | [] => .ok []
  | (family, _) :: rest => do
      let entries ← sectionOf families family
      let fields ← familyFields family entries
      let others ← readFamilies families rest
      return (family, fields) :: others

/-- A flag of the engine, or what holds without it. -/
def readFlag (engine : Entries Value) (flag : String) (standard : Bool) :
    Except SettingsError Bool :=
  match engine.lookup (.text flag) with
  | none => .ok standard
  | some (.bool value) => .ok value
  | some _ => .error (.invalid (.notBool flag))

def ofConfig (config : Value) : Except SettingsError Settings := do
  match config with
  | .object entries =>
      let families ← sectionOf entries (.text "families")
      let familyNames ← readFamilies families families
      let engine ← sectionOf entries (.text "engine")
      let stampVersions ← readFlag engine "stamp_versions" true
      let rejectNewer ← readFlag engine "reject_newer_versions" false
      let configDigest ← (Digest.ofObject .config config).mapError SettingsError.fault
      return ⟨stampVersions, rejectNewer, familyNames, configDigest⟩
  | other => .error (.fault (.noEntries other.qualifiedTypeName))

end Settings

end Uplift
