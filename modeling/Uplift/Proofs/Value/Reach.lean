import Uplift.Proofs.Entries.Match
import Uplift.Value.Path

/-!
# What a path leads to

A path is followed key by key, through objects only. Where it ends there is a value or nothing, and
a path that goes on from there leads where its rest leads from that value.
-/

set_option autoImplicit false

namespace Uplift.Value

/-- What stands where some keys lead to, one below the other. -/
def reach? (keys : List Scalar) (node : Value) : Option Value :=
  (path? (keys.map scalar) node).toOption.join

@[simp] theorem reach?_nil (node : Value) : node.reach? [] = some node := by
  simp [reach?, path?, Except.toOption]

theorem reach?_cons (key : Scalar) (rest : List Scalar) (node : Value) :
    node.reach? (key :: rest) = (node.entries.lookup key).bind (reach? rest) := by
  cases node with
  | scalar value => rfl
  | array items => rfl
  | object entries =>
      simp only [reach?, List.map_cons, path?, Value.entries]
      cases Entries.lookup key entries <;> rfl

@[simp] theorem reach?_cons_object (key : Scalar) (rest : List Scalar) (entries : Entries Value) :
    (object entries).reach? (key :: rest) = (entries.lookup key).bind (reach? rest) :=
  reach?_cons key rest _

theorem reach?_cons_of_not_object {node : Value} (leaf : node.isObject = false) (key : Scalar)
    (rest : List Scalar) : node.reach? (key :: rest) = none := by
  cases node with
  | scalar value => rfl
  | array items => rfl
  | object entries => cases leaf

theorem reach?_append (keys more : List Scalar) (node : Value) :
    node.reach? (keys ++ more) = (node.reach? keys).bind (reach? more) := by
  induction keys generalizing node with
  | nil => rw [reach?_nil, List.nil_append, Option.bind_some]
  | cons key rest ih =>
      rw [List.cons_append, reach?_cons, reach?_cons, Option.bind_assoc]
      exact Option.bind_congr fun below _ => ih below

end Uplift.Value
