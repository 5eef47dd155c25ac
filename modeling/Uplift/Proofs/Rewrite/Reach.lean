import Uplift.Proofs.Value
import Uplift.Proofs.Value.Ways
import Uplift.Rewrite.Treatment

/-!
# Elements that are reached

A walk reaches the objects directly below a container, and from each object that it reaches those
directly below its children. It visits them in the order of their ways, that is, each before those
below it.
-/

set_option autoImplicit false

namespace Uplift.Rewrite

/-- A walk over what lies below a container reaches an object on a way. -/
inductive Reaches (container : Value) : List Nat → Entries Value → Prop where
  | direct {place : Nat} {element : Entries Value} :
      container.children[place]? = some (.object element) → Reaches container [place] element
  | deeper {way : List Nat} {element child : Entries Value} {index place : Nat} {children : Value} :
      Reaches container way element →
      element[index]? = some (.text Treatment.childrenField, children) →
      children.children[place]? = some (.object child) →
      Reaches container (way ++ [index, place]) child

/-!
## The list of visits
-/

mutual

/-- The visits of an element with all that is reached from it. A node that is no object is not
visited. -/
def visits : Value → List (List Nat × Entries Value)
  | .object entries => ([], entries) :: visitsOfEntries 0 entries
  | _ => []

def visitsOfEntries (place : Nat) : List (Scalar × Value) → List (List Nat × Entries Value)
  | [] => []
  | (key, value) :: rest =>
      under place (if key.sameKey (.text Treatment.childrenField) then visitsBelow value else []) ++
        visitsOfEntries (place + 1) rest

/-- The visits of a walk over what lies below a container. -/
def visitsBelow : Value → List (List Nat × Entries Value)
  | .scalar _ => []
  | .array items => visitsOfItems 0 items
  | .object entries => visitsOfValues 0 entries

def visitsOfItems (place : Nat) : List Value → List (List Nat × Entries Value)
  | [] => []
  | item :: rest => under place (visits item) ++ visitsOfItems (place + 1) rest

def visitsOfValues (place : Nat) : List (Scalar × Value) → List (List Nat × Entries Value)
  | [] => []
  | (_, value) :: rest => under place (visits value) ++ visitsOfValues (place + 1) rest

end

/-- The visits below an entry of an element. -/
def visitsOfEntry (entry : Scalar × Value) : List (List Nat × Entries Value) :=
  if entry.1.sameKey (.text Treatment.childrenField) then visitsBelow entry.2 else []

theorem visits_object (entries : List (Scalar × Value)) :
    visits (.object entries) = ([], entries) :: spread visitsOfEntry 0 entries := by
  have others (place : Nat) : visitsOfEntries place entries = spread visitsOfEntry place entries := by
    induction entries generalizing place with
    | nil => rfl
    | cons entry rest ih =>
        rw [visitsOfEntries, ih, spread]
        rfl
  rw [visits, others]

theorem visitsBelow_eq (container : Value) :
    visitsBelow container = spread visits 0 container.children := by
  cases container with
  | scalar value => rfl
  | array items =>
      have all (place : Nat) : visitsOfItems place items = spread visits place items := by
        induction items generalizing place with
        | nil => rfl
        | cons item rest ih => rw [visitsOfItems, ih, spread]
      rw [visitsBelow, all, Value.children]
  | object entries =>
      have all (place : Nat) :
          visitsOfValues place entries = spread visits place (entries.map (·.2)) := by
        induction entries generalizing place with
        | nil => rfl
        | cons entry rest ih =>
            rw [visitsOfValues, ih, List.map_cons, spread]
      rw [visitsBelow, all, Value.children]

variable {container value : Value} {element child : Entries Value} {way : List Nat}

theorem mem_visitsBelow : (way, element) ∈ visitsBelow container ↔
    ∃ place value rest, container.children[place]? = some value ∧ way = place :: rest ∧
      (rest, element) ∈ visits value := by
  rw [visitsBelow_eq, mem_spread]
  simp only [Nat.zero_add]

theorem mem_visits_object {entries : Entries Value} :
    (way, element) ∈ visits (.object entries) ↔
      (way = [] ∧ element = entries) ∨ ∃ index children rest,
        entries[index]? = some (.text Treatment.childrenField, children) ∧ way = index :: rest ∧
          (rest, element) ∈ visitsBelow children := by
  rw [visits_object, List.mem_cons, mem_spread, Prod.mk.injEq]
  refine or_congr_right ⟨?_, ?_⟩
  · rintro ⟨index, ⟨key, children⟩, rest, located, rfl, member⟩
    unfold visitsOfEntry at member
    split at member
    · rename_i named
      cases Scalar.sameKey_text_iff.mp named
      exact ⟨index, children, rest, located, by rw [Nat.zero_add], member⟩
    · cases member
  · rintro ⟨index, children, rest, located, rfl, member⟩
    exact ⟨index, _, rest, located, by rw [Nat.zero_add],
      by rwa [visitsOfEntry, if_pos (Scalar.sameKey_refl _)]⟩

theorem not_mem_visitsBelow_nil : ([], element) ∉ visitsBelow container := by
  intro member
  obtain ⟨_, _, _, _, same, _⟩ := mem_visitsBelow.mp member
  cases same

theorem mem_visitsBelow_cons {place : Nat} : (place :: way, element) ∈ visitsBelow container ↔
    ∃ child, container.children[place]? = some child ∧ (way, element) ∈ visits child := by
  rw [mem_visitsBelow]
  constructor
  · rintro ⟨other, child, rest, located, same, member⟩
    cases same
    exact ⟨child, located, member⟩
  · rintro ⟨child, located, member⟩
    exact ⟨place, child, way, located, rfl, member⟩

theorem mem_visits_nil {entries : Entries Value} :
    ([], element) ∈ visits (.object entries) ↔ element = entries := by
  rw [mem_visits_object]
  simp

theorem mem_visits_cons {entries : Entries Value} {place : Nat} :
    (place :: way, element) ∈ visits (.object entries) ↔ ∃ children,
      entries[place]? = some (.text Treatment.childrenField, children) ∧
        (way, element) ∈ visitsBelow children := by
  rw [mem_visits_object]
  constructor
  · rintro (⟨same, _⟩ | ⟨index, children, rest, located, same, member⟩)
    · cases same
    · cases same
      exact ⟨children, located, member⟩
  · rintro ⟨children, located, member⟩
    exact .inr ⟨place, children, way, located, rfl, member⟩

theorem mem_visits_self (element : Entries Value) : ([], element) ∈ visits (.object element) := by
  rw [visits_object]
  exact .head _

section Onward

variable {index place : Nat} {children : Value}

end Onward

/-- What is reached below the children of an element that is reached is reached too. -/
theorem Reaches.trans {rest : List Nat} {index : Nat} {children : Value}
    (reaches : Reaches container way element)
    (located : element[index]? = some (.text Treatment.childrenField, children))
    (further : Reaches children rest child) : Reaches container (way ++ index :: rest) child := by
  induction further with
  | direct found => exact .deeper reaches located found
  | deeper _ innerLocated found ih =>
      have onward := ih.deeper innerLocated found
      rwa [List.append_assoc] at onward

end Uplift.Rewrite
