import Uplift.Digest.Canonical
import Uplift.Digest.Sha256
import Uplift.Fault

/-!
# Digests of documents

The digest of a document is the SHA-256 of its canonical text in UTF-8. Only objects are digested,
and only if every integer in them can be written down.
-/

set_option autoImplicit false

namespace Uplift

def Value.isWritable (value : Value) : Bool :=
  value.scalars.all Scalar.isWritable

/-- What is digested, as the message for anything but an object calls it. -/
inductive Digest.Subject where
  | document
  | config
deriving DecidableEq

namespace Digest

def Subject.name : Subject → String
  | document => "Documento"
  | config => "Config"

/-- The digest of any tree, in hexadecimal. -/
def hex (value : Value) : String :=
  Sha256.hexText (Sha256.digest (Canonical.text value).toUTF8.toList)

/-- The digest of an object, in hexadecimal. -/
def ofObject (subject : Subject) (value : Value) : Except Fault String :=
  match value with
  | .object _ =>
      if value.isWritable then .ok (hex value) else .error .integerTooLong
  | other => .error (.undigestible subject.name other.typeName)

end Digest

end Uplift
