import Uplift.Proofs.Graph.Turning
import Uplift.Proofs.Rewrite.ByName
import Uplift.Proofs.Rewrite.Edits

/-!
# Edits of what a table holds

A tree is added to a table in places of its own. So an object that is edited there keeps its place,
and what it refers to then is what the edits make of its tree.
-/

set_option autoImplicit false

namespace Uplift.Graph

variable {graph middle later : Graph} {before : List Nat} {parts others : List Placed}
  {entries : Entries Placed} {keyNodes : List (Scalar × Nat)} {index : Nat}

/-!
## Nodes
-/

namespace Yields

private theorem addNode {node : GraphNode} {placed : Placed}
    (yields : graph.Yields middle before (parts ++ others))
    (places : placed.places = middle.nodes.size :: parts.flatMap Placed.places)
    (holds : ∀ later : Graph, later.nodes[middle.nodes.size]? = some node →
      (∀ part ∈ parts, later.Holds part) → later.Holds placed)
    (sound : middle.nodes.size ∉ parts.flatMap Placed.places → Placed.SoundParts parts →
      placed.Sound) :
    graph.Yields (middle.addNode node).1 before (placed :: others) := by
  have frame {index : Nat} (small : index < middle.nodes.size) :
      (middle.addNode node).1.nodes[index]? = middle.nodes[index]? := by
    simp [Graph.addNode, Array.getElem?_push, Nat.ne_of_lt small]
  have stays : ∀ part ∈ parts ++ others, (middle.addNode node).1.Holds part := fun part member =>
    (yields.holds part member).of_same fun index taken =>
      frame ((yields.holds part member).lt_size taken)
  have fresh : middle.nodes.size ∉ (parts ++ others).flatMap Placed.places := fun taken =>
    Nat.lt_irrefl _ (lt_size_of_holds yields.holds taken)
  obtain ⟨ownSound, othersSound, disjoint⟩ := Placed.SoundParts.append_iff.mp yields.sound
  rw [List.flatMap_append, List.mem_append, not_or] at fresh
  obtain ⟨ownStay, othersStay⟩ := List.forall_mem_append.mp stays
  refine ⟨List.forall_mem_cons.mpr ⟨holds _ (by simp [Graph.addNode]) ownStay, othersStay⟩, ?_, ?_⟩
  · refine Placed.SoundParts.append_iff.mpr
      ⟨Placed.SoundParts.singleton_iff.mpr (sound fresh.1 ownSound), othersSound,
        fun index taken => ?_⟩
    rw [List.flatMap_singleton, places, List.mem_cons] at taken
    rcases taken with rfl | inside
    · exact fresh.2
    · exact disjoint index inside
  · refine yields.reworks.trans ⟨rfl, by simp [Graph.addNode], fun index small _ => frame small, ?_⟩
    intro index taken
    rw [List.flatMap_cons, places, List.cons_append, List.mem_cons, ← List.flatMap_append] at taken
    rcases taken with rfl | inside
    · exact .inr (Nat.le_refl _)
    · exact .inl inside

theorem addArray (yields : graph.Yields middle before (parts ++ others)) :
    graph.Yields (middle.addNode (.array (parts.map Placed.cell))).1 before
      (.array middle.nodes.size parts :: others) :=
  yields.addNode Placed.places_array (fun _ stands held => holds_array_iff.mpr ⟨stands, held⟩)
    fun fresh sound => Placed.sound_array_iff.mpr ⟨fresh, sound⟩

theorem addObject (yields : graph.Yields middle before (entries.values ++ others))
    (distinct : entries.DistinctKeys) :
    graph.Yields (middle.addNode (.object (entries.mapValues Placed.cell) [])).1 before
      (.object middle.nodes.size entries [] :: others) :=
  yields.addNode Placed.places_object (fun _ stands held => holds_object_iff.mpr ⟨stands, held⟩)
    fun fresh sound => Placed.sound_object_iff.mpr ⟨fresh, distinct, sound⟩

/-- A node is written into a place that none of the parts has. -/
theorem setNode (yields : graph.Yields middle before parts) (node : GraphNode)
    (apart : index ∉ parts.flatMap Placed.places) :
    graph.Yields (middle.setNode index node) (index :: before) parts := by
  have frame {other : Nat} (different : other ≠ index) :
      (middle.setNode index node).nodes[other]? = middle.nodes[other]? := by
    rw [Graph.setNode, Array.getElem?_setIfInBounds, if_neg (Ne.symm different)]
  refine ⟨fun part member => ?_, yields.sound, ⟨yields.reworks.root, ?_, ?_, ?_⟩⟩
  · refine (yields.holds part member).of_same fun other taken => frame fun same => apart ?_
    exact List.mem_flatMap.mpr ⟨part, member, same ▸ taken⟩
  · simpa [Graph.setNode] using yields.reworks.grows
  · intro other small kept
    rw [List.mem_cons, not_or] at kept
    rw [frame kept.1, yields.reworks.frame other small kept.2]
  · intro other taken
    exact (yields.reworks.fresh other taken).imp_left (.tail _)

end Yields

theorem setEntries_eq {cells old : Entries Cell}
    (stands : graph.nodes[index]? = some (.object old keyNodes)) :
    graph.setEntries index cells = graph.setNode index (.object cells keyNodes) := by
  have resolved : graph.resolve (.node index) = .object old keyNodes := by
    rw [resolve, Array.getD_eq_getD_getElem?, stands]
    rfl
  rw [setEntries, resolved]

/-!
## Added trees
-/

/-- A tree is added, in new places. -/
abbrev Adds (graph : Graph) (added : Graph × Cell) (value : Value) : Prop :=
  ∃ part : Placed, part.value = value ∧ added.2 = part.cell ∧ graph.Yields added.1 [] [part]

private theorem exists_addItems {items : List Value}
    (each : ∀ item ∈ items, ∀ graph : Graph, graph.Adds (graph.addTree item) item) (graph : Graph) :
    ∃ parts : List Placed, parts.map Placed.value = items ∧
      (graph.addItems items).2 = parts.map Placed.cell ∧
        graph.Yields (graph.addItems items).1 [] parts := by
  induction items generalizing graph with
  | nil => exact ⟨[], rfl, rfl, .refl (List.forall_mem_nil _) .nil⟩
  | cons item rest ih =>
      obtain ⟨first, later⟩ := List.forall_mem_cons.mp each
      obtain ⟨part, rfl, cell, yields⟩ := first graph
      obtain ⟨parts, rfl, cells, others⟩ := ih later (graph.addTree part.value).1
      refine ⟨part :: parts, rfl, ?_, yields.append others nofun nofun⟩
      rw [addItems, List.map_cons, ← cell, ← cells]

private theorem exists_addEntries {entries : Entries Value}
    (each : ∀ entry ∈ entries, ∀ graph : Graph, graph.Adds (graph.addTree entry.2) entry.2)
    (graph : Graph) :
    ∃ parts : Entries Placed, parts.mapValues Placed.value = entries ∧
      (graph.addEntries entries).2 = parts.mapValues Placed.cell ∧
        graph.Yields (graph.addEntries entries).1 [] parts.values := by
  induction entries generalizing graph with
  | nil => exact ⟨[], rfl, rfl, .refl (List.forall_mem_nil _) .nil⟩
  | cons entry rest ih =>
      obtain ⟨key, value⟩ := entry
      obtain ⟨first, later⟩ := List.forall_mem_cons.mp each
      obtain ⟨part, rfl, cell, yields⟩ := first graph
      obtain ⟨parts, rfl, cells, others⟩ := ih later (graph.addTree part.value).1
      refine ⟨(key, part) :: parts, rfl, ?_, yields.append others nofun nofun⟩
      rw [addEntries]
      exact congrArg₂ (fun cell cells => (key, cell) :: cells) cell cells

theorem adds_addTree {value : Value} (distinct : value.DistinctKeys) (graph : Graph) :
    graph.Adds (graph.addTree value) value := by
  induction value using Value.induction generalizing graph with
  | scalar value =>
      refine ⟨.scalar value, rfl, rfl, ?_⟩
      refine .refl (fun part member => ?_)
        (Placed.SoundParts.singleton_iff.mpr (Placed.sound_scalar value))
      rw [List.mem_singleton.mp member]
      exact holds_scalar value
  | array items ih =>
      have below := Value.DistinctKeys.array_iff.mp distinct
      obtain ⟨parts, same, cells, yields⟩ :=
        exists_addItems (fun item member => ih item member (below item member)) graph
      have all : graph.Yields (graph.addItems items).1 [] (parts ++ []) := by
        rwa [List.append_nil]
      refine ⟨.array (graph.addItems items).1.nodes.size parts, ?_, rfl, ?_⟩
      · rw [Placed.value_array, same]
      · have added := all.addArray
        rwa [← cells] at added
  | object entries ih =>
      obtain ⟨own, below⟩ := Value.DistinctKeys.object_iff.mp distinct
      obtain ⟨parts, same, cells, yields⟩ :=
        exists_addEntries (fun entry member => ih entry member (below entry member)) graph
      have all : graph.Yields (graph.addEntries entries).1 [] (parts.values ++ []) := by
        rwa [List.append_nil]
      have partsDistinct : parts.DistinctKeys := by
        rw [← same] at own
        exact own.of_keys (Entries.keys_mapValues Placed.value parts)
      refine ⟨.object (graph.addEntries entries).1.nodes.size parts [], ?_, rfl, ?_⟩
      · rw [Placed.value_object, same]
      · have added := all.addObject partsDistinct
        rwa [← cells] at added

/-!
## Edited objects
-/

/-- Entries of a table that are edited, and the trees that they have come to refer to. -/
structure Edits (graph : Graph) (before : List Nat) (state : Graph × Entries Cell)
    (entries : Entries Placed) : Prop where
  cells : state.2 = entries.mapValues Placed.cell
  distinct : entries.DistinctKeys
  yields : graph.Yields state.1 before entries.values

namespace Edits

variable {state : Graph × Entries Cell}

theorem edit (edits : graph.Edits before state entries) {change : Edit Value}
    (plain : ∀ field value, change = .set field value → Value.Alike value value) :
    ∃ edited : Entries Placed, graph.Edits before (Graph.edit state change) edited ∧
      edited.mapValues Placed.value = Edit.apply (entries.mapValues Placed.value) change := by
  obtain ⟨graph', cells⟩ := state
  obtain ⟨rfl, distinct, yields⟩ := edits
  -- An edit of the trees, with the added one among them, is the edit of cells and that of values.
  have edited {later : Graph} {others : List Placed} (step : Edit Placed)
      (gives : graph.Yields later before (entries.values ++ others)) (own : step.brought = others) :
      graph.Edits before (later, Edit.apply (entries.mapValues Placed.cell) (step.map Placed.cell))
        (Edit.apply entries step) := by
    subst own
    exact ⟨(Edit.mapValues_apply Placed.cell entries step).symm, Edit.distinctKeys_apply distinct step,
      gives.subperm (Edit.values_apply_subperm distinct step)⟩
  have unchanged : graph.Yields graph' before (entries.values ++ []) := by
    rwa [List.append_nil]
  cases change with
  | drop field => exact ⟨_, edited (.drop field) unchanged rfl, Edit.mapValues_apply ..⟩
  | rename old new => exact ⟨_, edited (.rename old new) unchanged rfl, Edit.mapValues_apply ..⟩
  | set field value =>
      obtain ⟨part, rfl, cell, adds⟩ :=
        adds_addTree (plain field value rfl).distinctKeys graph'
      have gives := yields.append adds nofun nofun
      rw [List.append_nil] at gives
      refine ⟨_, ?_, Edit.mapValues_apply Placed.value entries (.set field part)⟩
      have step := edited (.set field part) gives rfl
      rwa [Edit.map, ← cell] at step

theorem foldl (edits : graph.Edits before state entries) {changes : List (Edit Value)}
    (plain : ∀ field value, Edit.set field value ∈ changes → Value.Alike value value) :
    ∃ edited : Entries Placed, graph.Edits before (changes.foldl Graph.edit state) edited ∧
      edited.mapValues Placed.value =
        changes.foldl Edit.apply (entries.mapValues Placed.value) := by
  induction changes generalizing state entries with
  | nil => exact ⟨entries, edits, rfl⟩
  | cons change rest ih =>
      obtain ⟨edited, once, same⟩ :=
        edits.edit fun field value set => plain field value (set ▸ .head _)
      obtain ⟨last, all, sameLast⟩ :=
        ih once fun field value member => plain field value (.tail _ member)
      exact ⟨last, all, by rw [sameLast, same]; rfl⟩

end Edits

/-- An object that is amended in its place becomes what amending makes of its tree. -/
theorem exists_amend {amendment : Amendment} (plain : amendment.Plain)
    (holds : graph.Holds (.object index entries keyNodes))
    (sound : (Placed.object index entries keyNodes).Sound) :
    ∃ amended : Entries Placed,
      amended.mapValues Placed.value = amendment.apply (entries.mapValues Placed.value) ∧
        graph.Turns (graph.amend index (entries.mapValues Placed.cell) amendment)
          (.object index entries keyNodes) (.object index amended keyNodes) := by
  obtain ⟨fresh, distinct, parts⟩ := Placed.sound_object_iff.mp sound
  obtain ⟨stands, held⟩ := holds_object_iff.mp holds
  have start : graph.Edits (entries.values.flatMap Placed.places)
      (graph, entries.mapValues Placed.cell) entries := ⟨rfl, distinct, .refl held parts⟩
  obtain ⟨amended, edits, same⟩ := start.foldl plain
  refine ⟨amended, same, ?_⟩
  rw [amend]
  generalize amendment.edits.foldl edit (graph, entries.mapValues Placed.cell) = state at edits
  obtain ⟨middle, cells⟩ := state
  obtain ⟨rfl, amendedDistinct, yields⟩ := edits
  have small : index < graph.nodes.size := holds.lt_size (by simp)
  have apart := yields.not_mem small fresh
  have stays := (yields.reworks.frame index small fresh).trans stands
  dsimp only
  rw [setEntries_eq stays]
  refine (yields.setNode _ apart).object ?_ amendedDistinct apart
  obtain ⟨within, _⟩ := Array.getElem?_eq_some_iff.mp stays
  rw [setNode, Array.getElem?_setIfInBounds_self_of_lt within]

end Uplift.Graph
