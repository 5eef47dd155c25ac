import Uplift.Proofs.Graph.Promoting

/-!
# Treatments of graphs that share no part

A treatment of a document that is held as a graph, and that shares no part, does what the treatment
of its tree does.
-/

set_option autoImplicit false

namespace Uplift

open Logged (Parallel)

variable {visit : Graph → Cell → Logged Fault Graph} {walk : Value → Logged Fault Value}
  {rule : Entries Outline → Except Fault Amendment} {graph : Graph} {value : Value}
  {fields : FieldNames} {stepId : String}

namespace Graph

/-- A graph that turns into another in its root stands for the tree that it turns into. -/
theorem TurnsInto.standsFor {root : Placed} {later : Graph} {value : Value}
    (turned : graph.TurnsInto root later value) (isRoot : root.cell = graph.root) :
    later.StandsFor value := by
  obtain ⟨after, turns, rfl⟩ := turned
  exact ⟨after, rfl, turns.cell.trans (isRoot.trans turns.reworks.root.symm), turns.holds, turns.sound⟩

private theorem within_depthBound {placed : Placed} (holds : graph.Holds placed)
    (sound : placed.Sound) : placed.value.Within graph.depthBound := by
  have small := holds.length_places_le sound.unshared
  exact placed.within.mono (by unfold depthBound; omega)

/-- A visit of the root that mirrors a walk over the tree does to the graph what the walk does to the
tree. -/
theorem StandsFor.parallel (stands : graph.StandsFor value)
    (mirrors : ∀ placed, placed.value.Within graph.depthBound → Mirrors visit walk placed) :
    Parallel Graph.StandsFor (visit graph graph.root) (walk value) := by
  obtain ⟨placed, rfl, root, holds, sound⟩ := stands
  rw [← root]
  exact (mirrors placed (within_depthBound holds sound) graph holds sound).imp
    fun later value _ turned => turned.standsFor root

end Graph

/-!
## Elements
-/

/-- Visits what stands in a field of a node, if the node is an object that has it. -/
private def visitField (field : String) (visit : Graph → Cell → Logged Fault Graph) (graph : Graph)
    (cell : Cell) : Logged Fault Graph :=
  match graph.object? cell with
  | none => pure graph
  | some object => Rewrite.Shared.inField field visit graph object.2

private theorem mirrors_visitField {field : String} {bound : Nat}
    (each : ∀ part : Placed, part.value.Within bound → Mirrors visit walk part) (placed : Placed)
    (within : placed.value.Within bound) :
    Mirrors (visitField field visit) (Rewrite.inField field walk) placed := by
  intro graph holds sound
  rcases placed.object_or_not with ⟨index, entries, keyNodes, rfl⟩ | other
  · have below (part : Placed) (located : Entries.lookup (.text field) entries = some part) :
        Mirrors visit walk part := by
      exact each part (Placed.within_of_mem_children within
        (List.mem_map_of_mem (Entries.mem_of_lookup_text located)))
    rw [visitField, Placed.cell, holds.object?_object, Placed.value_object]
    refine (parallel_field below holds sound).imp fun later value _ turned => ?_
    obtain ⟨turned, turns, rfl, _⟩ := turned
    exact ⟨_, turns, Placed.value_object⟩
  · have leaves : Rewrite.inField field walk placed.value = Pure.pure placed.value :=
      Value.of_not_object (fun _ => rfl) (fun _ => rfl) placed.value other
    rw [visitField, holds.object?_none other, leaves]
    exact Mirrors.pure _ graph holds sound

private theorem foldlM_elements (fields : FieldNames) (graph : Graph)
    (visit : Graph → Cell → Logged Fault Graph) :
    (Rewrite.Shared.elements fields graph).foldlM visit graph =
      visitField fields.content
        (visitField Treatment.elementsField fun graph cell => (graph.children cell).foldlM visit graph)
        graph graph.root := by
  unfold Rewrite.Shared.elements visitField Rewrite.Shared.inField
  cases graph.object? graph.root with
  | none => rfl
  | some root =>
      dsimp only [Option.bind_eq_bind, Option.bind_some]
      cases Entries.lookup (.text fields.content) root.2 with
      | none => rfl
      | some content =>
          dsimp only [Option.bind_some]
          cases graph.object? content with
          | none => rfl
          | some inner =>
              dsimp only [Option.bind_some]
              cases Entries.lookup (.text Treatment.elementsField) inner.2 <;> rfl

/-- Visits of the elements of a document do to the graph what walks over them do to the tree. -/
theorem Graph.StandsFor.parallel_elements (stands : graph.StandsFor value)
    (mirrors : ∀ placed, placed.value.Within graph.depthBound → Mirrors visit walk placed) :
    Parallel Graph.StandsFor ((Rewrite.Shared.elements fields graph).foldlM visit graph)
      (Rewrite.overElements fields (Rewrite.changeChildren walk) value) := by
  rw [foldlM_elements, Rewrite.overElements_eq_inField stands.distinctKeys]
  refine stands.parallel fun root => mirrors_visitField (mirrors_visitField fun part within => ?_) root
  exact mirrors_children fun child member =>
    mirrors child (Placed.within_of_mem_children within member)

/-!
## Operations
-/

section Operations

variable {index place : Nat} {entries inner : Entries Placed}
  {keyNodes innerKeys : List (Scalar × Nat)}

/-- The same is found as the operations of a content in a graph as in a tree. -/
private theorem parallel_found (each : ∀ placed, Mirrors visit walk placed)
    (located : entries.lookup (.text fields.content) = some (.object place inner innerKeys))
    (holds : graph.Holds (.object index entries keyNodes))
    (sound : (Placed.object index entries keyNodes).Sound) :
    Parallel (graph.TurnsInto (.object index entries keyNodes))
      (Logged.ofExcept
        (match Entries.lookup (.text Treatment.operationsField) (inner.mapValues Placed.cell) with
          | none | some (.scalar .null) => .ok []
          | some found =>
              match graph.resolve found with
              | .array items => .ok items
              | _ =>
                  .error
                    (.expectedArray (Treatment.operationsPlace fields) (graph.kindOf found))) >>=
        fun cells => cells.foldlM visit graph)
      (match Entries.lookup (.text Treatment.operationsField) (inner.mapValues Placed.value) with
        | none | some .null => pure (.object (entries.mapValues Placed.value))
        | some (.array items) => do
            let changed ← Rewrite.walkItems walk items
            pure (.object (Entries.put (.text fields.content)
              (.object (Entries.put (.text Treatment.operationsField) (.array changed)
                (inner.mapValues Placed.value))) (entries.mapValues Placed.value)))
        | some other =>
            Logged.fail (.expectedArray (Treatment.operationsPlace fields) other.kind)) := by
  have unchanged : Parallel (graph.TurnsInto (.object index entries keyNodes))
      (pure graph : Logged Fault Graph) (pure (.object (entries.mapValues Placed.value))) :=
    .pure ⟨_, .refl holds sound, Placed.value_object⟩
  rw [Entries.lookup_mapValues, Entries.lookup_mapValues]
  cases found : Entries.lookup (.text Treatment.operationsField) inner with
  | none => exact unchanged
  | some operations =>
      have held := (holds.of_lookup located).of_lookup found
      have heldSound := (sound.of_lookup located).of_lookup found
      have resolved := held.resolve_cell
      have kind := held.kindOf_eq
      rw [Option.map_some, Option.map_some]
      cases operations with
      | scalar scalar =>
          cases scalar with
          | null => exact unchanged
          | _ => exact .error
      | leaf at_ scalar =>
          rw [Placed.cell] at resolved kind ⊢
          dsimp only
          rw [resolved, kind]
          cases scalar with
          | null => exact absurd (.head _) (heldSound.visible at_)
          | _ => exact .error
      | array at_ items =>
          rw [Placed.cell] at resolved ⊢
          dsimp only
          rw [resolved, Placed.node, Placed.value_array]
          dsimp only
          rw [Logged.ofExcept_ok_bind]
          refine (parallel_siblings (fun part _ => each part) (Graph.holds_array_iff.mp held).2
            (Placed.sound_array_iff.mp heldSound).2).bind_pure fun later values _ turned => ?_
          obtain ⟨after, turns, rfl⟩ := turned
          have inContent := (turns.array held heldSound).entry found (holds.of_lookup located)
            (sound.of_lookup located)
          refine ⟨_, inContent.entry located holds sound, ?_⟩
          rw [Placed.value_object, Entries.put_mapValues, Placed.value_object, Entries.put_mapValues,
            Placed.value_array]
      | object at_ operations operationKeys =>
          rw [Placed.cell] at resolved kind ⊢
          dsimp only
          rw [resolved, kind, Placed.value_object]
          exact .error

end Operations

/-- Visits of the operations of a document do to the graph what a walk over them does to the tree. -/
theorem Graph.StandsFor.parallel_operations (stands : graph.StandsFor value)
    (each : ∀ placed, Mirrors visit walk placed) :
    Parallel Graph.StandsFor
      (Logged.ofExcept (Rewrite.Shared.operations fields graph) >>= fun cells =>
        cells.foldlM visit graph)
      (Rewrite.overOperations fields (Rewrite.walkItems walk) value) := by
  obtain ⟨root, rfl, isRoot, holds, sound⟩ := stands
  refine Parallel.imp ?_ fun later value _ (turned : graph.TurnsInto root later value) =>
    turned.standsFor isRoot
  rcases root.object_or_not with ⟨index, entries, keyNodes, rfl⟩ | other
  · have object := holds.object?_object
    have unchanged : Parallel (graph.TurnsInto (.object index entries keyNodes))
        (pure graph : Logged Fault Graph) (pure (.object (Entries.mapValues Placed.value entries))) :=
      .pure ⟨_, .refl holds sound, Placed.value_object⟩
    rw [Placed.cell] at isRoot
    rw [isRoot] at object
    rw [Rewrite.Shared.operations, object, Placed.value_object, Rewrite.overOperations,
      Entries.lookup_mapValues]
    dsimp only
    rw [Entries.lookup_mapValues]
    cases located : Entries.lookup (.text fields.content) entries with
    | none => exact unchanged
    | some part =>
        have held := holds.of_lookup located
        have kind := held.kindOf_eq
        rw [Option.map_some, Option.map_some]
        cases part with
        | scalar scalar =>
            cases scalar with
            | null => exact unchanged
            | _ => exact .error
        | leaf place scalar =>
            have noObject : graph.object? (.node place) = none :=
              held.object?_none fun _ same => by cases same
            rw [Placed.cell] at kind ⊢
            dsimp only
            rw [noObject, kind]
            cases scalar with
            | null => exact absurd (.head _) ((sound.of_lookup located).visible place)
            | _ => exact .error
        | array place items =>
            have noObject : graph.object? (.node place) = none := held.object?_none (by simp)
            rw [Placed.cell] at kind ⊢
            dsimp only
            rw [noObject, kind, Placed.value_array]
            exact .error
        | object place inner innerKeys =>
            rw [Placed.cell, Placed.value_object]
            dsimp only
            rw [held.object?_object]
            exact parallel_found each located holds sound
  · have absent := holds.object?_none other
    have treeBelow : graph.treeBelow graph.depthBound root.cell = root.value := by
      have small := holds.length_places_le sound.unshared
      exact holds.treeBelow_eq (by unfold Graph.depthBound; omega)
    rw [isRoot] at absent treeBelow
    rw [Rewrite.Shared.operations, absent]
    dsimp only
    rw [treeBelow]
    exact Value.of_not_object (fun _ => .error) (fun _ => .error) root.value other

/-!
## Treatments
-/

/-- What a treatment does to every object it does as well from the root down. -/
def Treatment.FromRoot : Treatment → Prop
  | .everyObject rule => ∀ stepId fuel (value : Value), value.DistinctKeys → value.Within fuel →
      Rewrite.topDown (rule stepId) fuel value = Rewrite.everyObject (rule stepId) value
  | _ => True

/-- A treatment of a graph that shares no part does what the treatment of the tree does: it makes the
same notes, fails with the same fault, or leaves a graph that stands for the treated tree. -/
theorem Graph.StandsFor.parallel_treatment (stands : graph.StandsFor value) {treatment : Treatment}
    (byName : treatment.ByName) (fromRoot : treatment.FromRoot) :
    Parallel Graph.StandsFor (Rewrite.onGraph fields stepId treatment graph)
      (Rewrite.onTree fields stepId treatment value) := by
  cases treatment with
  | promote => exact stands.parallel_promote
  | everyObject rule =>
      have within : value.Within graph.depthBound := by
        obtain ⟨_, rfl, _, holds, sound⟩ := stands
        exact Graph.within_depthBound holds sound
      rw [Rewrite.onTree, ← fromRoot stepId graph.depthBound value stands.distinctKeys within]
      exact stands.parallel fun placed _ => mirrors_everyObject (byName.plain stepId) _ placed
  | eachElement rule =>
      exact stands.parallel_elements fun placed _ => mirrors_thisObject (byName.plain stepId) placed
  | elementProperties ruleOf =>
      rw [Rewrite.onTree, funext Rewrite.elements_eq_changeChildren]
      refine stands.parallel_elements fun placed within =>
        mirrors_element (fun type rule chosen => ?_) _ placed within
      exact (byName type rule chosen).plain stepId
  | eachOperation rule =>
      exact stands.parallel_operations fun placed => mirrors_thisObject (byName.plain stepId) placed

end Uplift
