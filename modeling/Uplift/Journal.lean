import Uplift.Fault

/-!
# The journal of a run

What happens during a migration is recorded as notes in order. A note is an event, or a warning of
a step, which counts as an event of warning level as well. `Logged` is the outcome of an action
together with the notes it made, also if it failed.
-/

set_option autoImplicit false

namespace Uplift

/-- How serious an event is. -/
inductive Level where
  | debug
  | info
  | warning
  | error
  | other (name : String)
deriving DecidableEq

namespace Level

def name : Level → String
  | debug => "DEBUG"
  | info => "INFO"
  | warning => "WARNING"
  | error => "ERROR"
  | other name => name

def ofName (name : String) : Level :=
  ([debug, info, warning, error].find? fun level => level.name = name).getD (.other name)

end Level

/-- What happened, in which step or phase. -/
structure Event where
  stepId : String
  level : Level
  message : String
  extra : List (String × Value)

/-- One note of the journal. -/
inductive Note where
  | event (happened : Event)
  | warning (stepId message : String)

namespace Note

def toEvent : Note → Event
  | .event happened => happened
  | .warning stepId message => ⟨stepId, .warning, message, []⟩

def toWarning? : Note → Option (String × String)
  | .event _ => none
  | .warning stepId message => some (stepId, message)

end Note

/-- The notes of a run, in order. -/
abbrev Journal := List Note

namespace Journal

def events (journal : Journal) : List Event :=
  journal.map Note.toEvent

/-- Adds a message to the list of its step; a step that is new comes last. -/
def addWarning (groups : List (String × List String)) (stepId message : String) :
    List (String × List String) :=
  match groups with
  | [] => [(stepId, [message])]
  | (other, messages) :: rest =>
      if other = stepId then (other, messages ++ [message]) :: rest
      else (other, messages) :: addWarning rest stepId message

/-- The messages of warnings, grouped by step in the order of their first warnings. -/
def warnings (journal : Journal) : List (String × List String) :=
  (journal.filterMap Note.toWarning?).foldl
    (fun groups warning => addWarning groups warning.1 warning.2) []

end Journal

/-- The run that events belong to. -/
structure Context where
  family : String
  subject : Subject
  runId : Option String

namespace Context

/-- A context in which nothing but the family is known. -/
def ofFamily (family : String) : Context := ⟨family, .unknown, none⟩

end Context

namespace Event

/-- Sets a field, in its place if it is there. -/
def setField (fields : List (String × Value)) (name : String) (value : Value) :
    List (String × Value) :=
  if fields.any (·.1 = name) then
    fields.map fun field => if field.1 = name then (name, value) else field
  else fields ++ [(name, value)]

/-- The fields under which an event is recorded. The document's identifier is among them if it is
known, and extra fields take precedence over all others. -/
def fields (context : Context) (event : Event) : List (String × Value) :=
  let base : List (String × Value) :=
    (context.runId.map fun runId => ("run_id", Value.text runId)).toList
      ++ [("family", .text context.family), ("step_id", .text event.stepId),
          ("level", .text event.level.name), ("message", .text event.message)]
      ++ (context.subject.entityId.map fun entityId => ("entity_id", Value.text entityId)).toList
  event.extra.foldl (fun fields field => setField fields field.1 field.2) base

end Event

/-- The outcome of an action and the notes it made on the way. -/
structure Logged (ε α : Type) where
  notes : Journal
  outcome : Except ε α

namespace Logged

variable {ε α β : Type}

protected def pure (value : α) : Logged ε α := ⟨[], .ok value⟩

def fail (error : ε) : Logged ε α := ⟨[], .error error⟩

/-- Goes on with the value of a successful action; notes add up in order. -/
protected def bind (action : Logged ε α) (next : α → Logged ε β) : Logged ε β :=
  match action.outcome with
  | .error error => ⟨action.notes, .error error⟩
  | .ok value =>
      let rest := next value
      ⟨action.notes ++ rest.notes, rest.outcome⟩

instance : Monad (Logged ε) where
  pure := Logged.pure
  bind := Logged.bind

def note (entry : Note) : Logged ε Unit := ⟨[entry], .ok ()⟩

/-- Takes over an outcome, without a note. -/
def ofExcept (outcome : Except ε α) : Logged ε α := ⟨[], outcome⟩

def mapError {ε' : Type} (change : ε → ε') (action : Logged ε α) : Logged ε' α :=
  ⟨action.notes, action.outcome.mapError change⟩

@[simp] theorem pure_notes (value : α) : (pure value : Logged ε α).notes = [] := rfl

@[simp] theorem pure_outcome (value : α) : (pure value : Logged ε α).outcome = .ok value := rfl

end Logged

end Uplift
