import Uplift.Proofs.Entries
import Uplift.Proofs.Writable
import Uplift.Value.Outline

/-!
# Reading fields

A question about a field that depends on its text has an answer exactly if the text can be made, and
then the answer is the one that the wording gives. There is one fault with which it fails.
-/

set_option autoImplicit false

namespace Uplift

/-- The answer to a question about what is legible. -/
def answerIf {α : Type} (legible : Bool) (answer : α) : Except Fault α :=
  if legible then .ok answer else .error .integerTooLong

section Answers

variable {α β : Type} {legible : Bool} {answer given : α} {fault : Fault}

theorem answerIf_eq_ok_iff :
    answerIf legible answer = .ok given ↔ legible = true ∧ given = answer := by
  cases legible with
  | false => exact iff_of_false nofun nofun
  | true =>
      rw [answerIf, if_pos rfl, Except.ok.injEq, eq_comm]
      exact (and_iff_right rfl).symm

theorem answerIf_eq_error_iff :
    answerIf legible answer = .error fault ↔ legible = false ∧ fault = .integerTooLong := by
  cases legible with
  | true => exact iff_of_false nofun nofun
  | false =>
      rw [answerIf, if_neg Bool.false_ne_true, Except.error.injEq, eq_comm]
      exact (and_iff_right rfl).symm

@[simp] theorem map_answerIf (change : α → β) :
    (answerIf legible answer).map change = answerIf legible (change answer) := by
  cases legible <;> rfl

end Answers

namespace Scalar

/-- A scalar whose wording has nothing but white space. -/
def isWordless (scalar : Scalar) : Bool :=
  Text.isBlank scalar.wording

end Scalar

namespace Outline

/-- Whether the text can be made; that of a container, which is empty, always can. -/
def isLegible : Outline → Bool
  | scalar value => value.isWritable
  | _ => true

def wording : Outline → String
  | scalar value => value.wording
  | _ => ""

def isWordless : Outline → Bool
  | scalar value => value.isWordless
  | _ => false

/-- A container without content, or a scalar without words. -/
def isVoid : Outline → Bool
  | scalar value => value.isWordless
  | array isEmpty => isEmpty
  | object isEmpty => isEmpty

variable {seen : Outline}

theorem asText_eq (seen : Outline) : seen.asText = answerIf seen.isLegible seen.wording := by
  cases seen <;> rfl

theorem isBlank_eq (seen : Outline) : seen.isBlank = answerIf seen.isLegible seen.isWordless := by
  cases seen with
  | scalar value => exact map_answerIf Text.isBlank
  | array isEmpty => rfl
  | object isEmpty => rfl

theorem isEmpty_eq (seen : Outline) : seen.isEmpty = answerIf seen.isLegible seen.isVoid := by
  cases seen with
  | scalar value => exact map_answerIf Text.isBlank
  | array isEmpty => rfl
  | object isEmpty => rfl

end Outline

namespace Value

def isLegible (value : Value) : Bool := value.outline.isLegible

/-- A scalar whose wording has nothing but white space. Containers are never wordless. -/
def isWordless : Value → Bool
  | scalar value => value.isWordless
  | _ => false

/-- A container without content, or a scalar without words. -/
def isVoid : Value → Bool
  | scalar value => value.isWordless
  | array items => items.isEmpty
  | object entries => entries.isEmpty

theorem wording_outline (value : Value) : value.outline.wording = value.wording := by
  cases value <;> rfl

theorem isWordless_outline (value : Value) : value.outline.isWordless = value.isWordless := by
  cases value <;> rfl

/-- What can be written is legible. -/
theorem isLegible_of_isWritable {value : Value} (writable : value.isWritable = true) :
    value.isLegible = true := by
  cases value with
  | scalar scalar => rwa [isWritable_scalar] at writable
  | array items => rfl
  | object entries => rfl

theorem asText_eq (value : Value) : value.asText = answerIf value.isLegible value.wording := by
  rw [asText, Outline.asText_eq, wording_outline, isLegible]

end Value

/-!
## Fields of an object
-/

namespace Entries

/-- What an object says in a field: nothing if the field is absent or holds a container. -/
def wordingAt (field : String) (object : Entries Value) : String :=
  ((object.lookup (.text field)).map Value.wording).getD ""

/-- Whether the text of a field can be made. -/
def legibleAt (field : String) (object : Entries Value) : Bool :=
  (object.lookup (.text field)).all Value.isLegible

theorem legibleAt_iff {field : String} {object : Entries Value} :
    object.legibleAt field = true ↔
      ∀ value, object.lookup (.text field) = some value → value.isLegible = true :=
  Option.all_eq_true _ _

theorem Writable.legibleAt {object : Entries Value} (writable : Writable object) (field : String) :
    object.legibleAt field = true :=
  legibleAt_iff.mpr fun _ found => Value.isLegible_of_isWritable (writable.lookup found)

end Entries

/-- A field is read as it is worded, if its text can be made. -/
theorem Outline.textAt_mapValues (field : String) (object : Entries Value) :
    Outline.textAt field (object.mapValues Value.outline) =
      answerIf (object.legibleAt field) (object.wordingAt field) := by
  rw [textAt, Entries.lookup_mapValues, Entries.legibleAt, Entries.wordingAt]
  cases object.lookup (.text field) with
  | none => rfl
  | some value => exact Value.asText_eq value

end Uplift
