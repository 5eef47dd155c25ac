import Uplift.Fields
import Uplift.Versions.Listing

/-!
# Version markers

The marker lists the versions that a document has, in the form that the explicit strategy reads.
It stands in the content if that is an object, and in the root otherwise.
-/

set_option autoImplicit false

namespace Uplift.Marker

/-- Writes a text under the migrations field of the content, or of the root if the content is no
object. Nothing is written into a document that is no object. -/
def put (fields : FieldNames) (text : String) : Value → Value
  | .object entries =>
      match Entries.lookup (.text fields.content) entries with
      | some (.object content) =>
          .object (Entries.put (.text fields.content)
            (.object (Entries.put (.text fields.migrations) (.text text) content)) entries)
      | _ => .object (Entries.put (.text fields.migrations) (.text text) entries)
  | other => other

def write (fields : FieldNames) (versions : List Int) (document : Value) : Value :=
  put fields (Listing.format versions) document

end Uplift.Marker
