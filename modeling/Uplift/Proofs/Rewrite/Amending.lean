import Uplift.Proofs.Rewrite.Walk
import Uplift.Proofs.Value.Leaves

/-!
# Rules that do not fail

On a tree on whose objects a rule does not fail, the rule is applied at once: the tree becomes
another one, and what the rule notes on its objects is noted in order. A rule that fails with one
fault alone fails on a tree exactly if it fails on some object of it.
-/

set_option autoImplicit false

namespace Uplift.Rewrite

mutual

/-- Amends every object of a tree. -/
def amendObjects (rule : Entries Outline → Amendment) : Value → Value
  | .scalar value => .scalar value
  | .array items => .array (amendItems rule items)
  | .object entries => .object ((rule (outlines entries)).apply (amendEntries rule entries))

def amendItems (rule : Entries Outline → Amendment) : List Value → List Value
  | [] => []
  | item :: rest => amendObjects rule item :: amendItems rule rest

def amendEntries (rule : Entries Outline → Amendment) :
    List (Scalar × Value) → List (Scalar × Value)
  | [] => []
  | (key, value) :: rest => (key, amendObjects rule value) :: amendEntries rule rest

end

/-- The notes on all objects of a tree, from the root down. -/
def amendObjectsNotes (rule : Entries Outline → Amendment) (value : Value) : List Note :=
  value.objects.flatMap fun object => (rule (outlines object)).notes

/-- Amends a node alone, if it is an object. -/
def amendObject (rule : Entries Outline → Amendment) : Value → Value
  | .object entries => .object ((rule (outlines entries)).apply entries)
  | other => other

def amendObjectNotes (rule : Entries Outline → Amendment) : Value → List Note
  | .object entries => (rule (outlines entries)).notes
  | _ => []

def mapChildren (change : Value → Value) : Value → Value
  | .scalar value => .scalar value
  | .array items => .array (items.map change)
  | .object entries => .object (Entries.mapValues change entries)

theorem amendItems_eq (rule : Entries Outline → Amendment) (items : List Value) :
    amendItems rule items = items.map (amendObjects rule) := by
  induction items with
  | nil => rfl
  | cons item rest ih => rw [amendItems, ih, List.map_cons]

theorem amendEntries_eq (rule : Entries Outline → Amendment) (entries : List (Scalar × Value)) :
    amendEntries rule entries = Entries.mapValues (amendObjects rule) entries := by
  induction entries with
  | nil => rfl
  | cons entry rest ih =>
      rw [amendEntries, ih]
      rfl

/-- A tree keeps its form, and so it stays legible or not. -/
theorem isLegible_amendObjects (rule : Entries Outline → Amendment) (value : Value) :
    (amendObjects rule value).isLegible = value.isLegible := by
  cases value <;> rfl

variable {rule : Entries Outline → Except Fault Amendment} {total : Entries Outline → Amendment}
  {value : Value} {fault : Fault}

/-!
## Walks that succeed
-/

theorem ask_eq_of_ok {entries : Entries Value} {amendment : Amendment}
    (asked : rule (outlines entries) = .ok amendment) :
    ask rule entries = ⟨amendment.notes, .ok amendment⟩ := by
  rw [ask, asked]
  simp [noteAll, Logged.ofExcept, bind, Logged.bind, pure, Logged.pure]

theorem walkItems_eq_of_ok {visit : Value → Logged Fault Value} {change : Value → Value}
    {notes : Value → List Note} {items : List Value}
    (visits : ∀ item ∈ items, visit item = ⟨notes item, .ok (change item)⟩) :
    walkItems visit items = ⟨items.flatMap notes, .ok (items.map change)⟩ := by
  induction items with
  | nil => rfl
  | cons item rest ih =>
      obtain ⟨first, others⟩ := List.forall_mem_cons.mp visits
      rw [walkItems, first, ih others, Logged.bind_eq_of_ok _ rfl, Logged.bind_eq_of_ok _ rfl,
        Logged.pure_notes, List.append_nil]
      rfl

theorem walkValues_eq_of_ok {visit : Scalar → Value → Logged Fault Value}
    {change : Value → Value} {notes : Value → List Note} {entries : List (Scalar × Value)}
    (visits : ∀ entry ∈ entries,
      visit entry.1 entry.2 = ⟨notes entry.2, .ok (change entry.2)⟩) :
    walkValues visit entries =
      ⟨entries.flatMap fun entry => notes entry.2, .ok (Entries.mapValues change entries)⟩ := by
  induction entries with
  | nil => rfl
  | cons entry rest ih =>
      obtain ⟨key, value⟩ := entry
      obtain ⟨first, others⟩ := List.forall_mem_cons.mp visits
      rw [walkValues, first, ih others, Logged.bind_eq_of_ok _ rfl, Logged.bind_eq_of_ok _ rfl,
        Logged.pure_notes, List.append_nil]
      rfl

/-- A rule that succeeds on every object of a tree succeeds on the tree. -/
theorem everyObject_eq_of_ok
    (same : ∀ object ∈ value.objects, rule (outlines object) = .ok (total (outlines object))) :
    everyObject rule value = ⟨amendObjectsNotes total value, .ok (amendObjects total value)⟩ := by
  induction value using Value.induction with
  | scalar scalar => rfl
  | array items ih =>
      rw [Value.forall_objects_array] at same
      have walked : walkItems (everyObject rule) items =
          ⟨items.flatMap (amendObjectsNotes total), .ok (items.map (amendObjects total))⟩ :=
        walkItems_eq_of_ok fun item member => ih item member (same item member)
      rw [everyObject, everyObjectItems_eq, walked, Logged.bind_eq_of_ok _ rfl, Logged.pure_notes,
        List.append_nil, amendObjects, amendItems_eq, amendObjectsNotes, Value.objects_array,
        List.flatMap_assoc]
      rfl
  | object entries ih =>
      rw [Value.forall_objects_object] at same
      have walked : walkValues (fun _ => everyObject rule) entries =
          ⟨entries.flatMap fun entry => amendObjectsNotes total entry.2,
            .ok (Entries.mapValues (amendObjects total) entries)⟩ :=
        walkValues_eq_of_ok fun entry member => ih entry member (same.2 entry member)
      rw [everyObject, everyObjectEntries_eq, ask_eq_of_ok same.1, walked,
        Logged.bind_eq_of_ok _ rfl, Logged.bind_eq_of_ok _ rfl, Logged.pure_notes, List.append_nil,
        amendObjects, amendEntries_eq, amendObjectsNotes, Value.objects_object, List.flatMap_cons,
        List.flatMap_assoc]
      rfl

theorem thisObject_eq_of_ok
    (same : ∀ object, value = .object object →
      rule (outlines object) = .ok (total (outlines object))) :
    thisObject rule value = ⟨amendObjectNotes total value, .ok (amendObject total value)⟩ := by
  cases value with
  | scalar scalar => rfl
  | array items => rfl
  | object entries =>
      rw [thisObject, ask_eq_of_ok (same entries rfl), Logged.bind_eq_of_ok _ rfl,
        Logged.pure_notes, List.append_nil]
      rfl

theorem changeChildren_eq_of_ok {visit : Value → Logged Fault Value} {change : Value → Value}
    {notes : Value → List Note}
    (visits : ∀ child ∈ value.children, visit child = ⟨notes child, .ok (change child)⟩) :
    changeChildren visit value =
      ⟨value.children.flatMap notes, .ok (mapChildren change value)⟩ := by
  cases value with
  | scalar scalar => rfl
  | array items =>
      rw [Value.children] at visits
      rw [changeChildren, walkItems_eq_of_ok visits, Logged.bind_eq_of_ok _ rfl,
        Logged.pure_notes, List.append_nil]
      rfl
  | object entries =>
      rw [Value.children, List.forall_mem_map] at visits
      rw [changeChildren, walkValues_eq_of_ok visits, Logged.bind_eq_of_ok _ rfl,
        Logged.pure_notes, List.append_nil, Value.children, List.flatMap_map]
      rfl

/-!
## Walks that fail
-/

theorem exists_error_of_walkItems {visit : Value → Logged Fault Value} {items : List Value}
    (failed : (walkItems visit items).outcome = .error fault) :
    ∃ item ∈ items, (visit item).outcome = .error fault := by
  induction items with
  | nil => cases failed
  | cons item rest ih =>
      rw [walkItems] at failed
      rcases Logged.bind_outcome_error.mp failed with here | ⟨_, _, later⟩
      · exact ⟨item, .head _, here⟩
      · rcases Logged.bind_outcome_error.mp later with there | ⟨_, _, never⟩
        · obtain ⟨other, member, failing⟩ := ih there
          exact ⟨other, .tail _ member, failing⟩
        · cases never

theorem exists_error_of_walkValues {visit : Scalar → Value → Logged Fault Value}
    {entries : List (Scalar × Value)}
    (failed : (walkValues visit entries).outcome = .error fault) :
    ∃ entry ∈ entries, (visit entry.1 entry.2).outcome = .error fault := by
  induction entries with
  | nil => cases failed
  | cons entry rest ih =>
      rw [walkValues] at failed
      rcases Logged.bind_outcome_error.mp failed with here | ⟨_, _, later⟩
      · exact ⟨entry, .head _, here⟩
      · rcases Logged.bind_outcome_error.mp later with there | ⟨_, _, never⟩
        · obtain ⟨other, member, failing⟩ := ih there
          exact ⟨other, .tail _ member, failing⟩
        · cases never

theorem exists_error_of_ask {entries : Entries Value}
    (failed : (ask rule entries).outcome = .error fault) :
    rule (outlines entries) = .error fault := by
  unfold ask noteAll at failed
  cases asked : rule (outlines entries) with
  | ok amendment =>
      rw [asked] at failed
      cases failed
  | error other =>
      rw [asked] at failed
      exact failed

/-- What a tree fails with is what one of its objects fails with. -/
theorem exists_error_of_everyObject (failed : (everyObject rule value).outcome = .error fault) :
    ∃ object ∈ value.objects, rule (outlines object) = .error fault := by
  induction value using Value.induction with
  | scalar scalar => cases failed
  | array items ih =>
      rw [everyObject, everyObjectItems_eq] at failed
      rcases Logged.bind_outcome_error.mp failed with below | ⟨_, _, never⟩
      · obtain ⟨item, member, failing⟩ := exists_error_of_walkItems below
        obtain ⟨object, inside, asked⟩ := ih item member failing
        rw [Value.objects_array]
        exact ⟨object, List.mem_flatMap.mpr ⟨item, member, inside⟩, asked⟩
      · cases never
  | object entries ih =>
      rw [everyObject, everyObjectEntries_eq] at failed
      rw [Value.objects_object]
      rcases Logged.bind_outcome_error.mp failed with here | ⟨_, _, later⟩
      · exact ⟨entries, .head _, exists_error_of_ask here⟩
      · rcases Logged.bind_outcome_error.mp later with below | ⟨_, _, never⟩
        · obtain ⟨entry, member, failing⟩ := exists_error_of_walkValues below
          obtain ⟨object, inside, asked⟩ := ih entry member failing
          exact ⟨object, .tail _ (List.mem_flatMap.mpr ⟨entry, member, inside⟩), asked⟩
        · cases never

/-- A tree on which a rule succeeds has no object on which it fails. -/
theorem exists_amendment_of_treats {treated : Value} (treats : Treats rule value treated) :
    ∀ object ∈ value.objects, ∃ amendment, rule (outlines object) = .ok amendment := by
  induction value using Value.induction generalizing treated with
  | scalar scalar => exact nofun
  | array items ih =>
      obtain ⟨others, pairs, _⟩ := treats_array_iff.mp treats
      rw [Value.forall_objects_array]
      intro item member
      obtain ⟨other, _, itemTreats⟩ := exists_of_forall₂ pairs member
      exact ih item member itemTreats
  | object entries ih =>
      obtain ⟨amendment, below, asked, pairs, _⟩ := treats_object_iff.mp treats
      rw [Value.forall_objects_object]
      refine ⟨⟨amendment, asked⟩, fun entry member => ?_⟩
      obtain ⟨other, _, entryTreats⟩ := exists_of_forall₂ pairs member
      exact ih entry member entryTreats.2

/-- A rule that can fail in one way only fails on a tree exactly if it fails on an object of it. -/
theorem everyObject_eq_error_iff
    (one : ∀ entries other, rule entries = .error other → other = fault) :
    (everyObject rule value).outcome = .error fault ↔
      ∃ object ∈ value.objects, rule (outlines object) = .error fault := by
  refine ⟨exists_error_of_everyObject, fun failing => ?_⟩
  obtain ⟨object, member, failed⟩ := failing
  cases outcome : (everyObject rule value).outcome with
  | ok treated =>
      obtain ⟨amendment, asked⟩ := exists_amendment_of_treats outcome object member
      rw [asked] at failed
      cases failed
  | error other =>
      obtain ⟨_, _, asked⟩ := exists_error_of_everyObject outcome
      rw [one _ _ asked]

end Uplift.Rewrite
