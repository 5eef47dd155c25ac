import Uplift.Journal
import Uplift.MigrationError
import Uplift.Versions.Strategy

/-!
# Resolution of versions

The strategies of a family are asked in order, and the first one that finds a declaration decides.
A declaration that cannot be read ends the resolution: no later strategy makes up for it. Every
attempt leaves a note.
-/

set_option autoImplicit false

namespace Uplift.Resolution

def stepId : String := "versions.resolve"

def attempted (strategy : Strategy) (abstained : Bool) : Note :=
  .event ⟨stepId, .debug, "version strategy attempted",
    [("strategy", .text strategy.name), ("abstained", .bool abstained)]⟩

def resolved (satisfied : Satisfied) : Note :=
  .event ⟨stepId, .info, "document versions resolved",
    [("source", .text satisfied.source), ("form", .text satisfied.declaration.formName),
      ("max_version", .int satisfied.declaration.maxVersion)]⟩

def unreadable (strategy : Strategy) (field : String) : Note :=
  .event ⟨stepId, .error, "malformed version field",
    [("strategy", .text strategy.name), ("field", .text field)]⟩

/-- Asks the strategies in order; `none` if all of them abstain. -/
def ask (subject : Subject) (document : Value) :
    List Strategy → Logged Failure (Option Satisfied)
  | [] => pure none
  | strategy :: rest =>
      match strategy.attempt document with
      | .error (.malformed field raw token hint) => do
          Logged.note (unreadable strategy field)
          Logged.fail (.migration (.malformed field raw token hint subject))
      | .error (.fault fault) => Logged.fail (.untyped fault)
      | .ok none => do
          Logged.note (attempted strategy true)
          ask subject document rest
      | .ok (some satisfied) => do
          Logged.note (attempted strategy false)
          Logged.note (resolved satisfied)
          pure (some satisfied)

/-- The declaration of a document, by the strategies of its family. -/
def resolve (family : String) (strategies : List Strategy) (subject : Subject)
    (document : Value) : Logged Failure Satisfied := do
  match ← ask subject document strategies with
  | some satisfied => pure satisfied
  | none =>
      Logged.fail (.migration (.unresolved family (strategies.map Strategy.name) subject))

end Uplift.Resolution
