import Uplift.Versions.Listing

/-!
# Migration errors

The causes for which a document is not migrated, each with what is known about it, and the report
that each of them leaves.
-/

set_option autoImplicit false

namespace Uplift

/-- Why a document is not migrated. -/
inductive MigrationError where
  | unresolved (family : String) (strategies : List String) (subject : Subject)
  | malformed (field : String) (raw : Value) (token : Option String) (hint : String)
      (subject : Subject)
  | newer (family : String) (unknown : List Int) (latest : Option Int) (subject : Subject)
  | invalidRoot (family : String) (found : Kind)
  | stepFailed (family : String) (version : Int) (cause : Fault) (subject : Subject)

namespace MigrationError

def report : MigrationError → Report
  | unresolved family strategies subject =>
      (Report.unresolved (.text family) (.array (strategies.map Value.text))).about subject
  | malformed field raw token hint subject =>
      (Report.malformed (.text field) raw (Report.textOrNull token) (.text hint)).about subject
  | newer family unknown latest subject =>
      (Report.newer (.text family) (.array (unknown.map Value.int))
        ((latest.map Value.int).getD .null)).about subject
  | invalidRoot family found => Report.invalidRoot (.text family) (.text found.name)
  | stepFailed family version cause subject =>
      (Report.stepFailed (.text family) (.int version) cause.name cause.message).about subject

/-- What a migration error was raised from, if it was raised from another fault. -/
def cause? : MigrationError → Option Fault
  | stepFailed _ _ cause _ => some cause
  | _ => none

end MigrationError

/-- How a run ends that gives no result: with a migration error, or with a fault that no part of
the library turned into one. -/
inductive Failure where
  | migration (error : MigrationError)
  | untyped (fault : Fault)

end Uplift
