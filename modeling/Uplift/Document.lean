import Uplift.File
import Uplift.Format

/-!
# Documents as texts

Reading a document from a text or a file. A document has an object at its root.
-/

set_option autoImplicit false

namespace Uplift

/-- Why there is no document in a text or a file. -/
inductive DocumentError where
  | missingFile (name : String)
  | unsupportedFormat (name : String)
  | unreadable (error : FileError)
  /-- The text is not of its format, or holds a value that cannot be read. -/
  | unparsable (error : FormatError)
  | empty
  | notObject

namespace DocumentError

def message : DocumentError → String
  | missingFile name => "document file not found: " ++ name
  | unsupportedFormat name => "unsupported document format: " ++ name
  | unreadable _ => "document file cannot be read"
  | unparsable _ => "failed to parse document"
  | empty => "document is empty"
  | notObject => "Root node of document to import is not an object"

end DocumentError

namespace Document

def parse (format : Format) (text : String) : Except DocumentError Graph := do
  let graph ← (format.read 0 text).mapError DocumentError.unparsable
  match graph.resolve graph.root with
  | .object _ _ => return graph
  | .leaf .null => throw .empty
  | _ => throw .notObject

def parseAs (formatName : String) (text : String) : Except DocumentError Graph :=
  match Format.ofName? formatName with
  | none => .error (.unsupportedFormat formatName)
  | some format => parse format text

def load (file : File) : Except DocumentError Graph :=
  if file.isMissing then .error (.missingFile file.name)
  else
    match Format.ofSuffix? file.suffix with
    | none => .error (.unsupportedFormat file.suffix)
    | some format => do
        let text ← file.text.mapError DocumentError.unreadable
        parse format text

end Document

end Uplift
