import Mathlib.Data.List.Lex
import Uplift.Proofs.Value.Distinct

/-!
# Ways into a tree

A way says place by place which child to go to, counting the values of an object as the items of an
array. What stands at the end of every way, and which keys the objects there have, is all there is
to a tree. Listing the nodes of a tree from front to back is to list their ways in lexicographic
order.
-/

set_option autoImplicit false

namespace Uplift

/-- What a node is without what lies below it. -/
inductive Label where
  | scalar (value : Scalar)
  | array
  | object (keys : List Scalar)

namespace Value

def label : Value → Label
  | scalar value => .scalar value
  | array _ => .array
  | object entries => .object (entries.map (·.1))

/-- What stands at the end of a way. -/
def at? : List Nat → Value → Option Value
  | [], node => some node
  | place :: rest, node => node.children[place]?.bind (at? rest)

variable {node other : Value} {place : Nat} {way : List Nat}

@[simp] theorem at?_nil (node : Value) : node.at? [] = some node := rfl

theorem at?_cons (place : Nat) (rest : List Nat) (node : Value) :
    node.at? (place :: rest) = node.children[place]?.bind (at? rest) := rfl

theorem at?_append (way more : List Nat) (node : Value) :
    node.at? (way ++ more) = (node.at? way).bind (at? more) := by
  induction way generalizing node with
  | nil => rfl
  | cons place rest ih =>
      rw [List.cons_append, at?_cons, at?_cons, Option.bind_assoc]
      exact Option.bind_congr fun child _ => ih child

theorem children_object_getElem? (entries : Entries Value) (place : Nat) :
    (object entries).children[place]? = entries[place]?.map (·.2) := by
  rw [children, List.getElem?_map]

end Value

/-!
## Lists of what is found on ways
-/

section Spread

variable {α β γ : Type} {make : α → List (List Nat × β)} {items : List α} {place : Nat}

/-- What was found from some place, seen from above it. -/
def under (place : Nat) (found : List (List Nat × β)) : List (List Nat × β) :=
  found.map fun one => (place :: one.1, one.2)

/-- What is found from each of some nodes that lie beside each other, the first of them at a given
place. -/
def spread (make : α → List (List Nat × β)) (place : Nat) : List α → List (List Nat × β)
  | [] => []
  | item :: rest => under place (make item) ++ spread make (place + 1) rest

theorem mem_under {found : List (List Nat × β)} {way : List Nat} {one : β} :
    (way, one) ∈ under place found ↔ ∃ rest, way = place :: rest ∧ (rest, one) ∈ found := by
  rw [under, List.mem_map]
  constructor
  · rintro ⟨⟨rest, same⟩, member, equal⟩
    cases equal
    exact ⟨rest, rfl, member⟩
  · rintro ⟨rest, rfl, member⟩
    exact ⟨(rest, one), member, rfl⟩

theorem mem_spread {way : List Nat} {one : β} :
    (way, one) ∈ spread make place items ↔
      ∃ index item rest, items[index]? = some item ∧ way = (place + index) :: rest ∧
        (rest, one) ∈ make item := by
  induction items generalizing place with
  | nil => simp [spread]
  | cons item others ih =>
      rw [spread, List.mem_append, mem_under, ih]
      constructor
      · rintro (⟨rest, rfl, member⟩ | ⟨index, found, rest, located, rfl, member⟩)
        · exact ⟨0, item, rest, rfl, rfl, member⟩
        · exact ⟨index + 1, found, rest, located, by rw [Nat.add_right_comm]; rfl, member⟩
      · rintro ⟨index, found, rest, located, rfl, member⟩
        cases index with
        | zero =>
            cases located
            exact .inl ⟨rest, rfl, member⟩
        | succ index =>
            exact .inr ⟨index, found, rest, located, by rw [Nat.add_right_comm]; rfl, member⟩

/-- What is made of all that is found can be made node by node. -/
theorem flatMap_spread (tell : β → List γ) (items : List α) :
    ((spread make place items).flatMap fun one => tell one.2) =
      items.flatMap fun item => (make item).flatMap fun one => tell one.2 := by
  induction items generalizing place with
  | nil => rfl
  | cons item others ih =>
      rw [spread, List.flatMap_append, ih, List.flatMap_cons, under, List.flatMap_map]

end Spread

section Paired

variable {α β : Type} {related : α → β → Prop} {items : List α} {others : List β} {place : Nat}

/-- Lists that are paired have related items in every place. -/
theorem exists_getElem?_of_forall₂ {item : α} (pairs : List.Forall₂ related items others)
    (located : items[place]? = some item) :
    ∃ other, others[place]? = some other ∧ related item other := by
  induction pairs generalizing place with
  | nil => cases located
  | cons head _ ih =>
      cases place with
      | zero =>
          cases located
          exact ⟨_, rfl, head⟩
      | succ place => exact ih located

theorem getElem?_eq_none_of_forall₂ (pairs : List.Forall₂ related items others)
    (absent : items[place]? = none) : others[place]? = none := by
  rw [List.getElem?_eq_none_iff] at absent ⊢
  rwa [← pairs.length_eq]

end Paired

end Uplift
