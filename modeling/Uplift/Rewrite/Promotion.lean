import Uplift.Entries
import Uplift.Fields

/-!
# Promotion of fields into the content

In the older, flat form of a document all fields stand in the root. Promotion keeps the identifier
and the name there and moves all other fields, in order and unchanged, into the content object.
-/

set_option autoImplicit false

namespace Uplift.Promotion

variable {α : Type}

/-- The fields that stay in the root: the identifier first, then the name, as far as present. -/
def kept (fields : FieldNames) (root : Entries α) : Entries α :=
  [fields.id, fields.name].foldl
    (fun entries field =>
      match root.lookup (.text field) with
      | none => entries
      | some value => entries.put (.text field) value)
    []

/-- The fields that move, in their order in the root. -/
def moved (fields : FieldNames) (root : Entries α) : Entries α :=
  root.filter fun entry =>
    !(entry.1.sameKey (.text fields.id) || entry.1.sameKey (.text fields.name))

/-- The root after promotion, where `content` holds the moved fields. -/
def root (fields : FieldNames) (content : α) (entries : Entries α) : Entries α :=
  (kept fields entries).put (.text fields.content) content

end Uplift.Promotion
