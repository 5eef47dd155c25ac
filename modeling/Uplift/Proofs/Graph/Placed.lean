import Mathlib.Data.List.Nodup
import Mathlib.Data.List.Perm.Subperm
import Uplift.Proofs.Value.Distinct
import Uplift.Rewrite.Graph

/-!
# Trees held in a table

A tree in which every node has its place in a table. A graph holds such a tree if the nodes of the
tree stand in their places. If no place is taken twice then no part is shared, and the tree that is
read off the graph is the one that it holds.
-/

set_option autoImplicit false

namespace Uplift

/-- A tree with the places that its nodes have in a table. -/
inductive Placed where
  | scalar (value : Scalar)
  | leaf (index : Nat) (value : Scalar)
  | array (index : Nat) (items : List Placed)
  | object (index : Nat) (entries : List (Scalar × Placed)) (keyNodes : List (Scalar × Nat))

namespace Placed

private theorem sizeOf_lt_of_mem_placed {entries : List (Scalar × Placed)}
    {entry : Scalar × Placed} (member : entry ∈ entries) : sizeOf entry.2 < sizeOf entries := by
  have inner : sizeOf entry.2 < sizeOf entry := by
    obtain ⟨key, part⟩ := entry
    simp only [Prod.mk.sizeOf_spec]
    omega
  exact Nat.lt_trans inner (List.sizeOf_lt_of_mem member)

@[elab_as_elim]
theorem induction {motive : Placed → Prop} (scalar : ∀ value, motive (.scalar value))
    (leaf : ∀ index value, motive (.leaf index value))
    (array : ∀ index items, (∀ item ∈ items, motive item) → motive (.array index items))
    (object : ∀ index entries keyNodes, (∀ entry ∈ entries, motive entry.2) →
      motive (.object index entries keyNodes)) :
    ∀ placed, motive placed
  | .scalar value => scalar value
  | .leaf index value => leaf index value
  | .array index items =>
      array index items fun item _ => induction scalar leaf array object item
  | .object index entries keyNodes =>
      object index entries keyNodes fun entry _ => induction scalar leaf array object entry.2
termination_by placed => sizeOf placed
decreasing_by
  · rename_i member
    have smaller := List.sizeOf_lt_of_mem member
    simp only [Placed.array.sizeOf_spec]
    omega
  · rename_i member
    have smaller := sizeOf_lt_of_mem_placed member
    simp only [Placed.object.sizeOf_spec]
    omega

/-- What refers to a tree. -/
def cell : Placed → Cell
  | scalar value => .scalar value
  | leaf index _ | array index _ | object index _ _ => .node index

/-- What stands where a tree is referred to. -/
def node : Placed → GraphNode
  | scalar value | leaf _ value => .leaf value
  | array _ items => .array (items.map cell)
  | object _ entries keyNodes => .object (Entries.mapValues cell entries) keyNodes

mutual

def value : Placed → Value
  | scalar value | leaf _ value => .scalar value
  | array _ items => .array (itemValues items)
  | object _ entries _ => .object (entryValues entries)

def itemValues : List Placed → List Value
  | [] => []
  | item :: rest => value item :: itemValues rest

def entryValues : List (Scalar × Placed) → List (Scalar × Value)
  | [] => []
  | (key, part) :: rest => (key, value part) :: entryValues rest

end

mutual

/-- The nodes of a tree with their places. -/
def nodes : Placed → List (Nat × GraphNode)
  | scalar _ => []
  | leaf index value => [(index, .leaf value)]
  | array index items => (index, .array (items.map cell)) :: itemNodes items
  | object index entries keyNodes =>
      (index, .object (Entries.mapValues cell entries) keyNodes) :: entryNodes entries

def itemNodes : List Placed → List (Nat × GraphNode)
  | [] => []
  | item :: rest => nodes item ++ itemNodes rest

def entryNodes : List (Scalar × Placed) → List (Nat × GraphNode)
  | [] => []
  | (_, part) :: rest => nodes part ++ entryNodes rest

end

def places (placed : Placed) : List Nat := placed.nodes.map (·.1)

variable {index : Nat} {items : List Placed} {entries : Entries Placed}
  {keyNodes : List (Scalar × Nat)}

@[simp] theorem value_array : (array index items).value = .array (items.map value) := by
  have each (items : List Placed) : itemValues items = items.map value := by
    induction items with
    | nil => rfl
    | cons item rest ih => rw [itemValues, ih, List.map_cons]
  rw [value, each]

@[simp] theorem value_object :
    (object index entries keyNodes).value = .object (entries.mapValues value) := by
  have each (entries : List (Scalar × Placed)) :
      entryValues entries = Entries.mapValues value entries := by
    induction entries with
    | nil => rfl
    | cons entry rest ih =>
        rw [entryValues, ih]
        rfl
  rw [value, each]

@[simp] theorem nodes_array : (array index items).nodes =
    (index, .array (items.map cell)) :: items.flatMap nodes := by
  have each (items : List Placed) : itemNodes items = items.flatMap nodes := by
    induction items with
    | nil => rfl
    | cons item rest ih => rw [itemNodes, ih, List.flatMap_cons]
  rw [nodes, each]

@[simp] theorem nodes_object : (object index entries keyNodes).nodes =
    (index, .object (entries.mapValues cell) keyNodes) :: entries.values.flatMap nodes := by
  have each (entries : List (Scalar × Placed)) :
      entryNodes entries = (Entries.values entries).flatMap nodes := by
    induction entries with
    | nil => rfl
    | cons entry rest ih =>
        rw [entryNodes, ih]
        rfl
  rw [nodes, each]

theorem map_flatMap_nodes (parts : List Placed) :
    (parts.flatMap nodes).map (·.1) = parts.flatMap places :=
  List.map_flatMap

@[simp] theorem places_scalar (value : Scalar) : (scalar value).places = [] := rfl

@[simp] theorem places_leaf (value : Scalar) : (leaf index value).places = [index] := rfl

@[simp] theorem places_array : (array index items).places = index :: items.flatMap places := by
  rw [places, nodes_array, List.map_cons, map_flatMap_nodes]

@[simp] theorem places_object :
    (object index entries keyNodes).places = index :: entries.values.flatMap places := by
  rw [places, nodes_object, List.map_cons, map_flatMap_nodes]

/-- A tree none of whose parts is shared, and none of whose objects has a key twice. A null always
stands where it is used. -/
structure Sound (placed : Placed) : Prop where
  unshared : placed.places.Nodup
  visible : ∀ index, (index, GraphNode.leaf .null) ∉ placed.nodes
  distinct : placed.value.DistinctKeys

theorem length_places_le_of_mem {parts : List Placed} {part : Placed} (member : part ∈ parts) :
    part.places.length ≤ (parts.flatMap places).length := by
  obtain ⟨front, back, rfl⟩ := List.append_of_mem member
  simp only [List.flatMap_append, List.flatMap_cons, List.length_append]
  omega

/-- The parts of a tree are sound, and no two of them share anything. -/
structure SoundParts (parts : List Placed) : Prop where
  apart : (parts.flatMap places).Nodup
  sound : ∀ part ∈ parts, part.Sound

private theorem soundParts_iff {parts : List Placed} : SoundParts parts ↔
    (parts.flatMap places).Nodup ∧ (∀ index, (index, GraphNode.leaf .null) ∉ parts.flatMap nodes) ∧
      ∀ part ∈ parts, part.value.DistinctKeys := by
  constructor
  · intro parts
    refine ⟨parts.apart, fun index member => ?_, fun part member => (parts.sound part member).distinct⟩
    obtain ⟨part, partMember, inside⟩ := List.mem_flatMap.mp member
    exact (parts.sound part partMember).visible index inside
  · intro known
    obtain ⟨apart, visible, distinct⟩ := known
    refine ⟨apart, fun part member =>
      ⟨(List.nodup_flatMap.mp apart).1 part member, ?_, distinct part member⟩⟩
    exact fun index inside => visible index (List.mem_flatMap.mpr ⟨part, member, inside⟩)

theorem sound_scalar (value : Scalar) : (scalar value).Sound :=
  ⟨List.nodup_nil, nofun, .scalar value⟩

theorem sound_array_iff : (array index items).Sound ↔
    index ∉ items.flatMap places ∧ SoundParts items := by
  rw [soundParts_iff]
  constructor
  · intro sound
    obtain ⟨unshared, visible, distinct⟩ := sound
    simp only [places_array, List.nodup_cons, nodes_array, value_array] at unshared visible distinct
    refine ⟨unshared.1, unshared.2, fun index member => visible index (.tail _ member), ?_⟩
    simpa using distinct
  · intro known
    obtain ⟨fresh, apart, visible, distinct⟩ := known
    refine ⟨by simpa using ⟨by simpa using fresh, apart⟩, fun index member => ?_, ?_⟩
    · rw [nodes_array, List.mem_cons] at member
      rcases member with same | inside
      · cases same
      · exact visible index inside
    · simpa using distinct

theorem sound_object_iff : (object index entries keyNodes).Sound ↔
    index ∉ entries.values.flatMap places ∧ entries.DistinctKeys ∧ SoundParts entries.values := by
  have keys : (entries.mapValues value).DistinctKeys ↔ entries.DistinctKeys := by
    rw [Entries.DistinctKeys, Entries.DistinctKeys, Entries.mapValues, List.map_map]
    rfl
  have values : (∀ entry ∈ entries.mapValues value, entry.2.DistinctKeys) ↔
      ∀ part ∈ entries.values, part.value.DistinctKeys := by
    rw [Entries.mapValues, Entries.values, List.forall_mem_map, List.forall_mem_map]
  rw [soundParts_iff]
  constructor
  · intro sound
    obtain ⟨unshared, visible, distinct⟩ := sound
    rw [value_object, Value.DistinctKeys.object_iff, keys, values] at distinct
    rw [places_object, List.nodup_cons] at unshared
    rw [nodes_object] at visible
    exact ⟨unshared.1, distinct.1, unshared.2, fun index member => visible index (.tail _ member),
      distinct.2⟩
  · intro known
    obtain ⟨fresh, own, apart, visible, distinct⟩ := known
    refine ⟨?_, fun index member => ?_, ?_⟩
    · rw [places_object, List.nodup_cons]
      exact ⟨fresh, apart⟩
    · rw [nodes_object, List.mem_cons] at member
      rcases member with same | inside
      · cases same
      · exact visible index inside
    · rw [value_object, Value.DistinctKeys.object_iff, keys, values]
      exact ⟨own, distinct⟩

theorem Sound.of_lookup {key : Scalar} {part : Placed}
    (sound : (object index entries keyNodes).Sound) (found : entries.lookup key = some part) :
    part.Sound := by
  obtain ⟨entry, member, rfl⟩ := Entries.exists_mem_of_lookup found
  exact (sound_object_iff.mp sound).2.2.sound entry.2 (List.mem_map_of_mem member)

end Placed

namespace Graph

variable {graph later : Graph} {placed : Placed} {index : Nat} {items : List Placed}
  {entries : Entries Placed} {keyNodes : List (Scalar × Nat)}

/-- The nodes of a tree stand in their places. -/
def Holds (graph : Graph) (placed : Placed) : Prop :=
  ∀ entry ∈ placed.nodes, graph.nodes[entry.1]? = some entry.2

theorem holds_scalar (value : Scalar) : graph.Holds (.scalar value) := nofun

theorem holds_array_iff : graph.Holds (.array index items) ↔
    graph.nodes[index]? = some (.array (items.map Placed.cell)) ∧
      ∀ item ∈ items, graph.Holds item := by
  simp only [Holds, Placed.nodes_array, List.forall_mem_cons, List.mem_flatMap]
  refine and_congr_right fun _ => ⟨fun all item member entry inside => ?_, fun all entry found => ?_⟩
  · exact all entry ⟨item, member, inside⟩
  · obtain ⟨item, member, inside⟩ := found
    exact all item member entry inside

theorem holds_object_iff : graph.Holds (.object index entries keyNodes) ↔
    graph.nodes[index]? = some (.object (entries.mapValues Placed.cell) keyNodes) ∧
      ∀ part ∈ entries.values, graph.Holds part := by
  simp only [Holds, Placed.nodes_object, List.forall_mem_cons, List.mem_flatMap]
  refine and_congr_right fun _ => ⟨fun all part member entry inside => ?_, fun all entry found => ?_⟩
  · exact all entry ⟨part, member, inside⟩
  · obtain ⟨part, member, inside⟩ := found
    exact all part member entry inside

namespace Holds

theorem lt_size (holds : graph.Holds placed) (taken : index ∈ placed.places) :
    index < graph.nodes.size := by
  obtain ⟨entry, member, rfl⟩ := List.mem_map.mp taken
  exact (Array.getElem?_eq_some_iff.mp (holds entry member)).1

/-- A tree is held wherever the same stands in its places. -/
theorem of_same (holds : graph.Holds placed)
    (same : ∀ index ∈ placed.places, later.nodes[index]? = graph.nodes[index]?) :
    later.Holds placed := fun entry member =>
  (same _ (List.mem_map_of_mem member)).trans (holds entry member)

theorem of_lookup {key : Scalar} (holds : graph.Holds (.object index entries keyNodes))
    (found : entries.lookup key = some placed) : graph.Holds placed := by
  obtain ⟨entry, member, rfl⟩ := Entries.exists_mem_of_lookup found
  exact (holds_object_iff.mp holds).2 entry.2 (List.mem_map_of_mem member)

theorem resolve_cell (holds : graph.Holds placed) : graph.resolve placed.cell = placed.node := by
  have found {index : Nat} {node : GraphNode} (stands : graph.nodes[index]? = some node) :
      graph.resolve (.node index) = node := by
    rw [resolve, Array.getD_eq_getD_getElem?, stands]
    rfl
  cases placed with
  | scalar value => rfl
  | leaf index value => exact found (holds _ (.head _))
  | array index items => exact found (holds_array_iff.mp holds).1
  | object index entries keyNodes => exact found (holds_object_iff.mp holds).1

/-- The tree below a cell is read off if there is fuel for each of its nodes. -/
theorem treeBelow_eq (holds : graph.Holds placed) {fuel : Nat}
    (enough : placed.places.length < fuel) : graph.treeBelow fuel placed.cell = placed.value := by
  induction placed using Placed.induction generalizing fuel with
  | scalar value =>
      obtain ⟨fuel, rfl⟩ := Nat.exists_eq_add_of_lt enough
      rfl
  | leaf index value =>
      obtain ⟨fuel, rfl⟩ := Nat.exists_eq_add_of_lt enough
      rw [treeBelow, holds.resolve_cell]
      rfl
  | array index items ih =>
      obtain ⟨fuel, rfl⟩ : ∃ less, fuel = less + 1 := ⟨fuel - 1, by omega⟩
      rw [treeBelow, holds.resolve_cell, Placed.node, Placed.value_array]
      rw [Placed.places_array, List.length_cons] at enough
      refine congrArg Value.array ?_
      rw [List.map_map]
      refine List.map_congr_left fun item member => ?_
      have part := Placed.length_places_le_of_mem member
      exact ih item member ((holds_array_iff.mp holds).2 item member) (by omega)
  | object index entries keyNodes ih =>
      obtain ⟨fuel, rfl⟩ : ∃ less, fuel = less + 1 := ⟨fuel - 1, by omega⟩
      rw [treeBelow, holds.resolve_cell, Placed.node, Placed.value_object]
      rw [Placed.places_object, List.length_cons] at enough
      refine congrArg Value.object ?_
      rw [Entries.mapValues, Entries.mapValues, Entries.mapValues, List.map_map]
      refine List.map_congr_left fun entry member => Prod.ext rfl ?_
      have inside : entry.2 ∈ Entries.values entries := List.mem_map_of_mem member
      have part := Placed.length_places_le_of_mem inside
      exact ih entry member ((holds_object_iff.mp holds).2 entry.2 inside) (by omega)

theorem length_places_le (holds : graph.Holds placed) (unshared : placed.places.Nodup) :
    placed.places.length ≤ graph.nodes.size := by
  have within : placed.places ⊆ List.range graph.nodes.size := fun index taken =>
    List.mem_range.mpr (holds.lt_size taken)
  simpa using (List.subperm_of_subset unshared within).length_le

end Holds

/-- A graph stands for a tree, and shares no part of it. -/
def StandsFor (graph : Graph) (value : Value) : Prop :=
  ∃ placed : Placed, placed.value = value ∧ placed.cell = graph.root ∧ graph.Holds placed ∧
    placed.Sound

theorem StandsFor.tree_eq {value : Value} (stands : graph.StandsFor value) :
    graph.tree = value := by
  obtain ⟨placed, rfl, root, holds, sound⟩ := stands
  rw [tree, ← root]
  exact holds.treeBelow_eq (Nat.lt_succ_of_le (holds.length_places_le sound.unshared))

theorem StandsFor.distinctKeys {value : Value} (stands : graph.StandsFor value) :
    value.DistinctKeys := by
  obtain ⟨placed, rfl, _, _, sound⟩ := stands
  exact sound.distinct

end Graph

end Uplift
