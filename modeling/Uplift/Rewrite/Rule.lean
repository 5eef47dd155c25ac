import Uplift.Journal
import Uplift.Number.Digits
import Uplift.Value.Outline

/-!
# Rules on objects

A rule looks at the entries of a single object and says how to amend them. It sees values in outline,
and never what lies inside a container; so the same rule serves however the document around the
object is held. Rules of one step share its identifier, under which their notes are made.
-/

set_option autoImplicit false

namespace Uplift

/-- A change of one entry, with values of any representation. -/
inductive Edit (α : Type) where
  | drop (field : String)
  /-- Sets a field, in its place if it is there. -/
  | set (field : String) (value : α)
  /-- Takes a field away and adds its value under another name, after all other fields. -/
  | rename (old new : String)

namespace Edit

variable {α : Type}

def apply (entries : Entries α) : Edit α → Entries α
  | drop field => entries.erase (.text field)
  | set field value => entries.put (.text field) value
  | rename old new =>
      match entries.lookup (.text old) with
      | none => entries
      | some value => (entries.erase (.text old)).put (.text new) value

end Edit

/-- The changes that a rule asks for, and the notes it makes. -/
structure Amendment where
  edits : List (Edit Value)
  notes : List Note

namespace Amendment

def none : Amendment := ⟨[], []⟩

def ofEdits (edits : List (Edit Value)) : Amendment := ⟨edits, []⟩

def warn (stepId message : String) : Amendment := ⟨[], [.warning stepId message]⟩

def apply (amendment : Amendment) (entries : Entries Value) : Entries Value :=
  amendment.edits.foldl Edit.apply entries

end Amendment

/-- How a rule amends the entries of an object, for the step with the given identifier. -/
abbrev Rule := String → Entries Outline → Amendment

/-- A rule that may fail to read what it asks about. -/
abbrev FallibleRule := String → Entries Outline → Except Fault Amendment

namespace Rule

/-- Renames a field, but never onto a field that is there: then both stay, and a warning says so. -/
def renameField (old new : String) : Rule := fun stepId entries =>
  if !entries.contains (.text old) then .none
  else if entries.contains (.text new) then
    .warn stepId ("Object already has field " ++ new)
  else .ofEdits [.rename old new]

/-- A rule that never fails, where one may fail. -/
def fallible (rule : Rule) : FallibleRule := fun stepId entries => .ok (rule stepId entries)

end Rule

namespace FallibleRule

/-- Edits an object if the answer to a question about one of its fields is yes. Where the field is
absent nothing is asked. -/
def editIf (ask : Outline → Except Fault Bool) (field : String) (edit : Edit Value) :
    FallibleRule := fun _ entries =>
  match entries.lookup (.text field) with
  | none => .ok .none
  | some found => (ask found).map fun answer => if answer then .ofEdits [edit] else .none

def fillBlank (field : String) (value : Value) : FallibleRule :=
  editIf Outline.isBlank field (.set field value)

def dropIfEmpty (field : String) : FallibleRule :=
  editIf Outline.isEmpty field (.drop field)

/-- Takes a field away if it is blank; containers stay, also empty ones. -/
def dropIfBlank (field : String) : FallibleRule :=
  editIf Outline.isBlank field (.drop field)

end FallibleRule

end Uplift
