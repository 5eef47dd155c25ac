import Uplift.Proofs.Digits
import Uplift.Proofs.Family
import Uplift.Proofs.Outcome
import Uplift.Proofs.Rewrite.Reachable

/-!
# What versions 102 and 103 make of a chain

Both versions visit the elements of the content and what lies below their children, and tidy the
properties of those whose type they know. Each visit makes one note, and a priority that says no
integer one warning. Nothing else of the document changes.
-/

set_option autoImplicit false

namespace Uplift.Chain

open Rewrite

/-!
## Tidy properties
-/

variable {stepId : String} {properties : Entries Value}

theorem notes_editIf {question : Outline → Except Fault Bool} {field stepId : String}
    {edit : Edit Value} {entries : Entries Outline} {amendment : Amendment}
    (asked : FallibleRule.editIf question field edit stepId entries = .ok amendment) :
    amendment.notes = [] := by
  unfold FallibleRule.editIf at asked
  split at asked
  · cases asked
    rfl
  · obtain ⟨answer, _, rfl⟩ := Outcome.map_eq_ok_iff.mp asked
    cases answer <;> rfl

theorem notes_settleFailureHandling (stepId : String) (entries : Entries Outline) :
    (settleFailureHandling stepId entries).notes = [] := by
  unfold settleFailureHandling
  split
  · rfl
  · dsimp only
    split <;> rfl

variable {fields : FieldNames} {document migrated : Value}

theorem apply_v102 (context : Context) (document : Value) :
    (v102.toStep (onTree fields)).apply context document =
      overElements fields (elements propertyRules102 v102.stepId) document := by
  change onTree fields v102.stepId (.elementProperties propertyRules102) document >>= pure = _
  exact Logged.bind_pure _

theorem apply_v103 (context : Context) (document : Value) :
    (v103.toStep (onTree fields)).apply context document =
      overElements fields (elements propertyRules103 v103.stepId) document := by
  change onTree fields v103.stepId (.elementProperties propertyRules103) document >>= pure = _
  exact Logged.bind_pure _

/-- A chain with a trigger, in which there is a condition, and a loop. -/
def chainOf (trigger condition loop : Entries Value) : Value :=
  .object [(.text "content", .object [(.text "elements", .array
    [.object [(.text "type", .text "http-trigger"), (.text "properties", .object trigger),
        (.text "children", .array
          [.object [(.text "type", .text "if"), (.text "properties", .object condition)]])],
      .object [(.text "type", .text "loop-2"), (.text "properties", .object loop)]])])]

def untidy : Value :=
  chainOf [] [(.text "priority", .text "+7")] [(.text "maxLoopIteration", .text " ")]

def untidyAfter103 : Value :=
  chainOf [] [(.text "priority", .text "+7")] []

end Uplift.Chain
