import Uplift.Proofs.Rewrite.Reach
import Uplift.Proofs.Rewrite.Walk

/-!
# What a walk over elements notes

A walk makes its notes visit by visit, in the order of its visits. On each it notes the element, and
what the rule of the element's type notes on the properties.
-/

set_option autoImplicit false

namespace Uplift.Rewrite

variable {ruleOf : String → Option FallibleRule} {stepId : String}

/-- What is noted where an amendment was asked for. -/
def notesOf : Except Fault Amendment → List Note
  | .ok amendment => amendment.notes
  | .error _ => []

/-- What is noted on a visit: the visit itself, and what the rule of the element's type notes on the
properties. -/
def visitNotes (ruleOf : String → Option FallibleRule) (stepId : String)
    (element : Entries Value) : List Note :=
  (visitOf element).note stepId ::
    notesOf (propertiesAmendment ruleOf (elementType element) stepId element)

theorem walkValues_notes {visit : Scalar → Value → Logged Fault Value}
    {entries walked : List (Scalar × Value)}
    (walks : (walkValues visit entries).outcome = .ok walked) :
    (walkValues visit entries).notes = entries.flatMap fun entry => (visit entry.1 entry.2).notes := by
  induction entries generalizing walked with
  | nil => rfl
  | cons entry rest ih =>
      obtain ⟨key, value⟩ := entry
      rw [walkValues] at walks ⊢
      obtain ⟨first, visited, later⟩ := Logged.bind_outcome_ok.mp walks
      obtain ⟨others, walkedRest, _⟩ := Logged.bind_outcome_ok.mp later
      rw [Logged.bind_eq_of_ok _ visited, Logged.bind_eq_of_ok _ walkedRest, ih walkedRest,
        List.flatMap_cons, Logged.pure_notes, List.append_nil]

theorem walkItems_notes {visit : Value → Logged Fault Value} {items walked : List Value}
    (walks : (walkItems visit items).outcome = .ok walked) :
    (walkItems visit items).notes = items.flatMap fun item => (visit item).notes := by
  induction items generalizing walked with
  | nil => rfl
  | cons item rest ih =>
      rw [walkItems] at walks ⊢
      obtain ⟨first, visited, later⟩ := Logged.bind_outcome_ok.mp walks
      obtain ⟨others, walkedRest, _⟩ := Logged.bind_outcome_ok.mp later
      rw [Logged.bind_eq_of_ok _ visited, Logged.bind_eq_of_ok _ walkedRest, ih walkedRest,
        List.flatMap_cons, Logged.pure_notes, List.append_nil]

/-- A walk over what lies below a container notes what the visits of the children note. -/
theorem elements_notes {container walked : Value} (walks : Walks ruleOf stepId container walked) :
    (elements ruleOf stepId container).notes =
      container.children.flatMap fun child => (element ruleOf stepId child).notes := by
  cases container with
  | scalar scalar => rfl
  | array items =>
      rw [Walks, elements, elementItems_eq] at walks
      obtain ⟨visited, done, _⟩ := Logged.bind_outcome_ok.mp walks
      rw [elements, elementItems_eq, Logged.bind_eq_of_ok _ done, walkItems_notes done,
        Logged.pure_notes, List.append_nil, Value.children]
  | object entries =>
      rw [Walks, elements, elementValues_eq] at walks
      obtain ⟨visited, done, _⟩ := Logged.bind_outcome_ok.mp walks
      rw [elements, elementValues_eq, Logged.bind_eq_of_ok _ done, walkValues_notes done,
        Logged.pure_notes, List.append_nil, Value.children, List.flatMap_map]

theorem element_notes {entries : List (Scalar × Value)} {visited : Value}
    (visits : Visits ruleOf stepId (.object entries) visited) :
    (element ruleOf stepId (.object entries)).notes =
      visitNotes ruleOf stepId entries ++
        entries.flatMap fun entry => (walkEntry ruleOf stepId entry.1 entry.2).notes := by
  obtain ⟨visitable, amendment, walked, asked, below, _⟩ := visits_object_iff.mp visits
  rw [← elementEntries_eq_ok_iff, elementEntries_eq] at below
  rw [element, elementEntries_eq, read_outlines, visitable, answerIf, if_pos rfl,
    Logged.bind_eq_of_ok _ rfl, Logged.bind_eq_of_ok _ (Logged.note_outcome _)]
  dsimp only [visitOf]
  rw [asked, Logged.bind_eq_of_ok _ rfl, Logged.bind_eq_of_ok _ rfl, Logged.bind_eq_of_ok _ below,
    walkValues_notes below, visitNotes, asked]
  simp [noteAll, Logged.note, Logged.ofExcept, notesOf, visitOf]

/-- A container that was walked over is what it was, but for its children, which were visited in
their places. -/
theorem label_and_children_of_walks {container walked : Value}
    (walks : Walks ruleOf stepId container walked) :
    walked.label = container.label ∧
      List.Forall₂ (Visits ruleOf stepId) container.children walked.children := by
  cases container with
  | scalar scalar =>
      cases walks
      exact ⟨rfl, .nil⟩
  | array items =>
      obtain ⟨visited, pairs, rfl⟩ := walks_array_iff.mp walks
      exact ⟨rfl, pairs⟩
  | object entries =>
      obtain ⟨visited, pairs, rfl⟩ := walks_object_iff.mp walks
      obtain ⟨keys, values⟩ := Entries.forall₂_matchEntry_iff.mp pairs
      exact ⟨by rw [Value.label, Value.label, keys], values⟩

theorem exists_visits {container walked child : Value} (walks : Walks ruleOf stepId container walked)
    (member : child ∈ container.children) : ∃ visited, Visits ruleOf stepId child visited := by
  obtain ⟨place, located⟩ := List.mem_iff_getElem?.mp member
  obtain ⟨visited, _, visits⟩ :=
    exists_getElem?_of_forall₂ (label_and_children_of_walks walks).2 located
  exact ⟨visited, visits⟩

/-- A walk notes visit by visit. -/
theorem notes_eq (value : Value) :
    (∀ visited, Visits ruleOf stepId value visited →
      (element ruleOf stepId value).notes =
        (visits value).flatMap fun visit => visitNotes ruleOf stepId visit.2) ∧
      ∀ walked, Walks ruleOf stepId value walked →
        (elements ruleOf stepId value).notes =
          (visitsBelow value).flatMap fun visit => visitNotes ruleOf stepId visit.2 := by
  induction value using Value.induction with
  | scalar scalar => exact ⟨fun _ _ => rfl, fun _ _ => rfl⟩
  | array items ih =>
      refine ⟨fun _ _ => rfl, fun walked walks => ?_⟩
      rw [elements_notes walks, visitsBelow_eq, flatMap_spread]
      refine List.flatMap_congr fun item member => ?_
      obtain ⟨visited, visit⟩ := exists_visits walks member
      exact (ih item member).1 visited visit
  | object entries ih =>
      constructor
      · intro visited visit
        obtain ⟨_, _, walked, _, below, _⟩ := visits_object_iff.mp visit
        rw [element_notes visit, visits_object, List.flatMap_cons, flatMap_spread]
        refine congrArg _ (List.flatMap_congr fun entry member => ?_)
        obtain ⟨index, located⟩ := List.mem_iff_getElem?.mp member
        obtain ⟨_, _, walks⟩ := exists_getElem?_of_forall₂ below located
        unfold walkEntry visitsOfEntry
        split
        · rename_i children
          exact (ih entry member).2 _ ((walksEntry_iff.mp walks).2.1 children)
        · rfl
      · intro walked walks
        rw [elements_notes walks, visitsBelow_eq, flatMap_spread]
        refine List.flatMap_congr fun child member => ?_
        obtain ⟨visited, visit⟩ := exists_visits walks member
        obtain ⟨entry, entryMember, rfl⟩ := List.mem_map.mp member
        exact (ih entry entryMember).1 visited visit

end Uplift.Rewrite
