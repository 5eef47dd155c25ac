import Uplift.Document
import Uplift.Family
import Uplift.Rewrite.Graph
import Uplift.Yaml.Writing.Document

/-!
# Importing documents

From a text or a file to a migrated document. The document is read first, then the family is looked
up, and then the document is migrated; a text is migrated to the YAML text of the result. Parts that
a text shares stay shared as far as the steps keep them so.
-/

set_option autoImplicit false

namespace Uplift

/-- Why an import gives no document. -/
inductive ImportError where
  | document (error : DocumentError)
  | unknownFamily (name : String)
  | failed (failure : Failure)

/-- A migrated document with the journal of its migration. -/
structure Imported where
  context : Context
  journal : Journal
  result : MigrationResult Graph

namespace Import

def migrate (settings : Settings) (familyName : String) (document : Graph) :
    Except ImportError Imported :=
  match Family.ofName? familyName with
  | none => .error (.unknownFamily familyName)
  | some family =>
      let engine := family.engine Rewrite.onGraph settings
      let action := engine.migrate document
      match action.outcome with
      | .error failure => .error (.failed failure)
      | .ok result => .ok ⟨engine.contextOf document.tree, action.notes, result⟩

/-- Migrates the document of a text in a format that is given by name, and writes it out. -/
def text (settings : Settings) (familyName formatName : String) (text : String) :
    Except ImportError String := do
  let document ← (Document.parseAs formatName text).mapError ImportError.document
  let imported ← migrate settings familyName document
  (Yaml.write imported.result.document).mapError fun fault => .failed (.untyped fault)

def file (settings : Settings) (familyName : String) (file : File) :
    Except ImportError Imported := do
  let document ← (Document.load file).mapError ImportError.document
  migrate settings familyName document

end Import

end Uplift
