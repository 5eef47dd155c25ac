import Uplift.Value.Shown

/-!
# Error reports

The form in which migration errors leave the library: a stable code, a message, details for the
diagnosis, a hint for the operator, and the document that is concerned. The catalogue says what the
report of each error is, whatever the values are that it tells of.
-/

set_option autoImplicit false

namespace Uplift

/-- The document that an event or an error is about, as far as it is known. -/
structure Subject where
  entityId : Option String
  entityName : Option String
deriving DecidableEq

namespace Subject

def unknown : Subject := ⟨none, none⟩

end Subject

namespace Report

/-- The catalogue of migration errors. Whatever is not in it counts as internal. -/
inductive Code where
  | unresolvedVersion
  | malformedVersionField
  | newerDocument
  | invalidRoot
  | stepFailed
  | internal
deriving DecidableEq

namespace Code

def name : Code → String
  | unresolvedVersion => "UNRESOLVED_VERSION"
  | malformedVersionField => "MALFORMED_VERSION_FIELD"
  | newerDocument => "NEWER_DOCUMENT_VERSION"
  | invalidRoot => "INVALID_DOCUMENT_ROOT"
  | stepFailed => "STEP_APPLICATION_ERROR"
  | internal => "MIGRATION_INTERNAL_ERROR"

def title : Code → String
  | unresolvedVersion => "UnresolvedVersion"
  | malformedVersionField => "MalformedVersionField"
  | newerDocument => "NewerDocumentVersion"
  | invalidRoot => "InvalidDocumentRoot"
  | stepFailed => "StepApplicationError"
  | internal => "MigrationException"

def ofTitle? (title : String) : Option Code :=
  [unresolvedVersion, malformedVersionField, newerDocument, invalidRoot, stepFailed, internal].find?
    fun code => code.title = title

end Code

end Report

/-- A migration error as it is reported. -/
structure Report where
  code : Report.Code
  message : String
  details : Entries Value
  hint : Value
  entityId : Value
  entityName : Value

namespace Report

def make (code : Code) (message : String) (details : List (String × Value)) (hint : Value) :
    Report :=
  ⟨code, message, details.map fun (name, value) => (.text name, value), hint, .null, .null⟩

/-- A text if there is one, and null otherwise. -/
def textOrNull (text : Option String) : Value :=
  (text.map Value.text).getD .null

def about (report : Report) (subject : Subject) : Report :=
  { report with
    entityId := textOrNull subject.entityId
    entityName := textOrNull subject.entityName }

def unresolved (family strategies : Value) : Report :=
  make .unresolvedVersion "Failed to retrieve migration data"
    [("family", family), ("strategies", strategies)]
    (.text "Declare o campo 'migrations' (ou o legado 'version') no documento exportado.")

def malformed (field raw token hint : Value) : Report :=
  make .malformedVersionField ("Malformed version field '" ++ field.shown ++ "'")
    [("field", field), ("raw_value", .text raw.quoted), ("token", token)] hint

def newer (family unknown latest : Value) : Report :=
  make .newerDocument "Unable to import an entity exported from a newer version"
    [("family", family), ("unknown_versions", unknown), ("latest_version", latest)]
    (.text "Atualize o produto para uma versão que conheça essas migrações antes de importar.")

def invalidRoot (family found : Value) : Report :=
  make .invalidRoot "Root node of document to import is not an object"
    [("family", family), ("root_kind", found)] .null

/-- A step failed, with the name and the message of what it failed with. -/
def stepFailed (family version : Value) (causeName causeMessage : String) : Report :=
  make .stepFailed ("Failed to make migration " ++ version.shown)
    [("family", family), ("version", version), ("exc_type", .text causeName),
      ("exc_message", .text causeMessage)]
    (.text ("Verifique se o documento tem o formato esperado pela versão anterior"
      ++ " à migração."))

def internal (name message : String) : Report :=
  make .internal (if message.isEmpty then "Unexpected migration failure" else message)
    [("exception_class", .text name)] (.text "Verifique o log de eventos da migração")

end Report

end Uplift
