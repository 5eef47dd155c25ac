import Uplift.Proofs.Graph.Walking
import Uplift.Proofs.Rewrite.Promotion

/-!
# Promotion of graphs

Promotion copies each field of the root on its own, each with a table of its own behind it. So what
the copies refer to is what the fields referred to, and no two of them share a part.
-/

set_option autoImplicit false

namespace Uplift

namespace Placed

open Uplift.Graph (shiftCell shiftNode)

mutual

/-- A tree with all its places further on. -/
def shift (offset : Nat) : Placed → Placed
  | scalar value => scalar value
  | leaf index value => leaf (index + offset) value
  | array index items => array (index + offset) (shiftItems offset items)
  | object index entries keyNodes =>
      object (index + offset) (shiftEntries offset entries)
        (keyNodes.map fun (key, index) => (key, index + offset))

def shiftItems (offset : Nat) : List Placed → List Placed
  | [] => []
  | item :: rest => shift offset item :: shiftItems offset rest

def shiftEntries (offset : Nat) : List (Scalar × Placed) → List (Scalar × Placed)
  | [] => []
  | (key, part) :: rest => (key, shift offset part) :: shiftEntries offset rest

end

variable {offset index : Nat} {items : List Placed} {entries : Entries Placed}
  {keyNodes : List (Scalar × Nat)} {placed : Placed}

theorem shift_array : (array index items).shift offset =
    array (index + offset) (items.map (shift offset)) := by
  have each (items : List Placed) : shiftItems offset items = items.map (shift offset) := by
    induction items with
    | nil => rfl
    | cons item rest ih => rw [shiftItems, ih, List.map_cons]
  rw [shift, each]

theorem shift_object : (object index entries keyNodes).shift offset =
    object (index + offset) (entries.mapValues (shift offset))
      (keyNodes.map fun (key, index) => (key, index + offset)) := by
  have each (entries : List (Scalar × Placed)) :
      shiftEntries offset entries = Entries.mapValues (shift offset) entries := by
    induction entries with
    | nil => rfl
    | cons entry rest ih =>
        rw [shiftEntries, ih]
        rfl
  rw [shift, each]

theorem cell_shift (offset : Nat) (placed : Placed) :
    (placed.shift offset).cell = shiftCell offset placed.cell := by
  cases placed <;> rfl

theorem value_shift (offset : Nat) (placed : Placed) : (placed.shift offset).value = placed.value := by
  induction placed using Placed.induction with
  | scalar value => rfl
  | leaf index value => rfl
  | array index items ih =>
      rw [shift_array, value_array, value_array, List.map_map]
      exact congrArg Value.array (List.map_congr_left ih)
  | object index entries keyNodes ih =>
      rw [shift_object, value_object, value_object, Entries.mapValues, Entries.mapValues, List.map_map]
      refine congrArg Value.object (List.map_congr_left fun entry member => ?_)
      exact Prod.ext rfl (ih entry member)

theorem nodes_shift (offset : Nat) (placed : Placed) : (placed.shift offset).nodes =
    placed.nodes.map fun (index, node) => (index + offset, shiftNode offset node) := by
  have cells (items : List Placed) : (items.map (shift offset)).map cell =
      (items.map cell).map (shiftCell offset) := by
    rw [List.map_map, List.map_map]
    exact List.map_congr_left fun item _ => cell_shift offset item
  have entryCells (entries : Entries Placed) : (entries.mapValues (shift offset)).mapValues cell =
      (entries.mapValues cell).mapValues (shiftCell offset) := by
    rw [Entries.mapValues, Entries.mapValues, Entries.mapValues, Entries.mapValues, List.map_map,
      List.map_map]
    exact List.map_congr_left fun entry _ => Prod.ext rfl (cell_shift offset entry.2)
  induction placed using Placed.induction with
  | scalar value => rfl
  | leaf index value => rfl
  | array index items ih =>
      rw [shift_array, nodes_array, nodes_array, List.map_cons, List.map_flatMap, List.flatMap_map,
        cells]
      exact congrArg _ (List.flatMap_congr ih)
  | object index entries keyNodes ih =>
      rw [shift_object, nodes_object, nodes_object, List.map_cons, List.map_flatMap, entryCells]
      refine congrArg _ ?_
      rw [Entries.values, Entries.values, Entries.mapValues, List.map_map, List.flatMap_map,
        List.flatMap_map]
      exact List.flatMap_congr ih

theorem places_shift (offset : Nat) (placed : Placed) :
    (placed.shift offset).places = placed.places.map (· + offset) := by
  rw [places, places, nodes_shift, List.map_map, List.map_map]
  rfl

theorem Sound.shift (sound : placed.Sound) (offset : Nat) : (placed.shift offset).Sound where
  unshared := by
    rw [places_shift]
    exact sound.unshared.map fun one other same => Nat.add_right_cancel same
  visible index member := by
    rw [nodes_shift] at member
    obtain ⟨⟨old, node⟩, inside, same⟩ := List.mem_map.mp member
    obtain ⟨_, null⟩ := Prod.mk.inj same
    cases node with
    | leaf value =>
        cases null
        exact sound.visible old inside
    | array items => cases null
    | object entries keyNodes => cases null
  distinct := by
    rw [value_shift]
    exact sound.distinct

end Placed

namespace Graph

variable {graph : Graph} {nodes : Array GraphNode} {placed : Placed}

/-- A copy of a table behind others holds what the table holds, further on. -/
theorem Holds.shift (holds : graph.Holds placed) (nodes : Array GraphNode) (root : Cell) :
    Graph.Holds ⟨nodes ++ graph.nodes.map (shiftNode nodes.size), root⟩ (placed.shift nodes.size) := by
  intro entry member
  rw [Placed.nodes_shift] at member
  obtain ⟨⟨index, node⟩, inside, rfl⟩ := List.mem_map.mp member
  have stands := holds _ inside
  dsimp only at stands ⊢
  rw [Array.getElem?_append_right (Nat.le_add_left _ _), Nat.add_sub_cancel, Array.getElem?_map,
    stands]
  rfl

theorem yields_shift (holds : graph.Holds placed) (sound : placed.Sound) (nodes : Array GraphNode)
    (root : Cell) :
    Graph.Yields ⟨nodes, root⟩ ⟨nodes ++ graph.nodes.map (shiftNode nodes.size), root⟩ []
      [placed.shift nodes.size] := by
  refine ⟨List.forall_mem_singleton.mpr (holds.shift nodes root),
    Placed.SoundParts.singleton_iff.mpr (sound.shift _), rfl, by simp, fun index small _ => ?_, ?_⟩
  · exact Array.getElem?_append_left small
  · intro index taken
    rw [List.flatMap_singleton, Placed.places_shift] at taken
    obtain ⟨old, _, rfl⟩ := List.mem_map.mp taken
    exact .inr (Nat.le_add_left _ _)

/-- One entry of an object that is separated from the others. -/
private def separateEntry (graph : Graph) (state : Array GraphNode × Entries Cell)
    (entry : Scalar × Cell) : Array GraphNode × Entries Cell :=
  match entry.2 with
  | .scalar _ => (state.1, state.2 ++ [entry])
  | .node _ =>
      (state.1 ++ graph.nodes.map (shiftNode state.1.size),
        state.2 ++ [(entry.1, shiftCell state.1.size entry.2)])

/-- Nodes that came about from nothing, and entries that refer to them. -/
private structure Separated (state : Array GraphNode × Entries Cell) (parts : Entries Placed) :
    Prop where
  cells : state.2 = parts.mapValues Placed.cell
  yields : Graph.Yields ⟨#[], .scalar .null⟩ ⟨state.1, .scalar .null⟩ [] parts.values

private theorem Separated.add {state : Array GraphNode × Entries Cell} {parts : Entries Placed}
    (separated : Separated state parts) (holds : graph.Holds placed) (sound : placed.Sound)
    (key : Scalar) :
    ∃ copy : Placed, copy.value = placed.value ∧
      Separated (separateEntry graph state (key, placed.cell)) (parts ++ [(key, copy)]) := by
  obtain ⟨nodes, cells⟩ := state
  obtain ⟨rfl, yields⟩ := separated
  have values (copy : Placed) : Entries.values (parts ++ [(key, copy)]) =
      parts.values ++ [copy] := List.map_append
  have copied (copy : Placed) : Entries.mapValues Placed.cell (parts ++ [(key, copy)]) =
      parts.mapValues Placed.cell ++ [(key, copy.cell)] := List.map_append
  have byCopy (isNode : ∃ index, placed.cell = .node index) : ∃ copy : Placed,
      copy.value = placed.value ∧
        Separated (separateEntry graph (nodes, parts.mapValues Placed.cell) (key, placed.cell))
          (parts ++ [(key, copy)]) := by
    obtain ⟨index, node⟩ := isNode
    refine ⟨placed.shift nodes.size, Placed.value_shift _ _, ?_, ?_⟩
    · rw [copied, Placed.cell_shift, node]
      rfl
    · rw [values, node]
      exact yields.append (yields_shift holds sound nodes _) nofun nofun
  cases placed with
  | scalar scalar =>
      refine ⟨.scalar scalar, rfl, copied _ ▸ rfl, ?_⟩
      rw [values]
      exact yields.append (.refl (List.forall_mem_singleton.mpr (holds_scalar scalar))
        (Placed.SoundParts.singleton_iff.mpr sound)) nofun nofun
  | leaf index scalar => exact byCopy ⟨index, rfl⟩
  | array index items => exact byCopy ⟨index, rfl⟩
  | object index entries keyNodes => exact byCopy ⟨index, rfl⟩

private theorem Separated.foldl {entries : Entries Placed} {state : Array GraphNode × Entries Cell}
    {parts : Entries Placed} (separated : Separated state parts)
    (holds : ∀ part ∈ entries.values, graph.Holds part)
    (sound : ∀ part ∈ entries.values, part.Sound) :
    ∃ copies : Entries Placed, copies.mapValues Placed.value = entries.mapValues Placed.value ∧
      Separated ((entries.mapValues Placed.cell).foldl (separateEntry graph) state)
        (parts ++ copies) := by
  induction entries generalizing state parts with
  | nil => exact ⟨[], rfl, by rwa [List.append_nil]⟩
  | cons entry rest ih =>
      obtain ⟨key, part⟩ := entry
      obtain ⟨held, heldRest⟩ := List.forall_mem_cons.mp holds
      obtain ⟨partSound, restSound⟩ := List.forall_mem_cons.mp sound
      obtain ⟨copy, same, added⟩ := separated.add held partSound key
      obtain ⟨copies, sameRest, all⟩ := ih added heldRest restSound
      refine ⟨(key, copy) :: copies, ?_, ?_⟩
      · exact congrArg₂ (fun value values => (key, value) :: values) same sameRest
      · rwa [List.append_assoc] at all

/-- What is built of separate entries stands for the promoted root. -/
private theorem standsFor_promoted {fields : FieldNames} {copies : Entries Placed}
    (yields : Graph.Yields ⟨#[], .scalar .null⟩ ⟨nodes, .scalar .null⟩ [] copies.values)
    (distinct : copies.DistinctKeys) :
    let content := Graph.addNode ⟨nodes, .scalar .null⟩
      (.object (Promotion.moved fields (copies.mapValues Placed.cell)) [])
    let root := content.1.addNode
      (.object (Promotion.root fields content.2 (copies.mapValues Placed.cell)) [])
    Graph.StandsFor { root.1 with root := root.2 }
      (.object (Promotion.root fields
        (.object (Promotion.moved fields (copies.mapValues Placed.value)))
        (copies.mapValues Placed.value))) := by
  have kept := Promotion.distinctKeys_kept fields copies
  have content := (yields.subperm
    (Promotion.values_moved_kept_perm distinct fields).subperm).addObject (distinct.filter _)
  have promoted := content.subperm (kept.values_put_subperm fields.content _)
  rw [← List.append_nil (Entries.values _)] at promoted
  have root := promoted.addObject (kept.put _ _)
  -- The content is referred to by the place that comes next.
  have cells := Promotion.root_mapValues Placed.cell fields
    (.object nodes.size (Promotion.moved fields copies) []) copies
  have values := Promotion.root_mapValues Placed.value fields
    (.object nodes.size (Promotion.moved fields copies) []) copies
  rw [Placed.value_object] at values
  rw [Promotion.moved_mapValues, Promotion.moved_mapValues, values]
  intro contentNode rootNode
  have sameRoot : rootNode = contentNode.1.addNode (.object ((Promotion.root fields
      (.object nodes.size (Promotion.moved fields copies) []) copies).mapValues Placed.cell) []) :=
    congrArg (fun entries => contentNode.1.addNode (.object entries [])) cells
  rw [sameRoot]
  exact ⟨_, Placed.value_object, rfl, root.holds _ (.head _), root.sound.sound _ (.head _)⟩

end Graph

open Logged (Parallel) in
/-- Promotion of a graph does what promotion of its tree does. -/
theorem Graph.StandsFor.parallel_promote {graph : Graph} {fields : FieldNames} {value : Value}
    (stands : graph.StandsFor value) :
    Parallel Graph.StandsFor (Logged.ofExcept (Rewrite.Shared.promote fields graph))
      (Logged.ofExcept (Rewrite.promote fields value)) := by
  obtain ⟨placed, rfl, isRoot, holds, sound⟩ := stands
  rcases placed.object_or_not with ⟨index, entries, keyNodes, rfl⟩ | other
  · obtain ⟨_, distinct, parts⟩ := Placed.sound_object_iff.mp sound
    have object := holds.object?_object
    rw [Placed.cell] at isRoot
    rw [isRoot] at object
    have start : Separated (#[], []) [] := ⟨rfl, .refl (List.forall_mem_nil _) .nil⟩
    obtain ⟨copies, same, separated⟩ :=
      start.foldl (Graph.holds_object_iff.mp holds).2 parts.sound
    have copiesDistinct : copies.DistinctKeys := distinct.of_keys (by
      rw [← Entries.keys_mapValues Placed.value copies, same, Entries.keys_mapValues])
    have separates : graph.separate (Entries.mapValues Placed.cell entries) =
        (Entries.mapValues Placed.cell entries).foldl (Graph.separateEntry graph) (#[], []) := rfl
    rw [Rewrite.Shared.promote, object, Placed.value_object, ← same]
    dsimp only
    rw [separates]
    generalize (Entries.mapValues Placed.cell entries).foldl _ _ = state at separated
    obtain ⟨nodes, cells⟩ := state
    obtain ⟨rfl, yields⟩ := separated
    rw [List.nil_append] at yields ⊢
    exact .ok (Graph.standsFor_promoted yields copiesDistinct)
  · have absent := holds.object?_none other
    have kind := holds.kindOf_eq
    rw [isRoot] at absent kind
    rw [Rewrite.Shared.promote, absent]
    dsimp only
    rw [kind]
    exact Value.of_not_object (fun _ => .error) (fun _ => .error) placed.value other

end Uplift
