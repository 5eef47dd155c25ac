import Uplift.Proofs.Family.ByName
import Uplift.Proofs.Graph.Editing
import Uplift.Proofs.Journal.Parallel
import Uplift.Proofs.Rewrite.InField
import Uplift.Proofs.Rewrite.TopDown

/-!
# Walks over what a table holds

A visit of a graph mirrors a walk over trees if it does to any tree that the graph holds, and that
shares no part, what the walk does to that tree: it makes the same notes, fails with the same fault,
or leaves in the place of the tree what the walk gives. Visits of single objects mirror each other,
and so do visits of one part after the other, and of parts inside a field.
-/

set_option autoImplicit false

namespace Uplift

open Logged (Parallel)

/-!
## What is seen of a part
-/

namespace Placed

def children : Placed → List Placed
  | scalar _ | leaf _ _ => []
  | array _ items => items
  | object _ entries _ => Entries.values entries

theorem value_children (placed : Placed) : placed.value.children = placed.children.map value := by
  cases placed with
  | scalar value => rfl
  | leaf index value => rfl
  | array index items => rw [value_array, Value.children, children]
  | object index entries keyNodes =>
      rw [value_object, Value.children, children, Entries.values, List.map_map, Entries.mapValues,
        List.map_map]
      rfl

theorem object_or_not (placed : Placed) :
    (∃ index entries keyNodes, placed = .object index entries keyNodes) ∨
      ∀ entries, placed.value ≠ .object entries := by
  cases placed with
  | scalar value => exact .inr nofun
  | leaf index value => exact .inr nofun
  | array index items => exact .inr (by simp)
  | object index entries keyNodes => exact .inl ⟨index, entries, keyNodes, rfl⟩

theorem within (placed : Placed) : placed.value.Within placed.places.length := by
  induction placed using Placed.induction with
  | scalar value => exact .scalar _ value
  | leaf index value => exact .scalar _ value
  | array index items ih =>
      rw [value_array, places_array, List.length_cons]
      exact .array (List.forall_mem_map.mpr fun item member =>
        (ih item member).mono (length_places_le_of_mem member))
  | object index entries keyNodes ih =>
      rw [value_object, places_object, List.length_cons]
      exact .object (List.forall_mem_map.mpr fun entry member =>
        (ih entry member).mono (length_places_le_of_mem (List.mem_map_of_mem member)))

theorem within_of_mem_children {placed child : Placed} {bound : Nat}
    (within : placed.value.Within bound) (member : child ∈ placed.children) :
    child.value.Within bound := by
  refine within.of_mem_children ?_
  rw [placed.value_children]
  exact List.mem_map_of_mem member

end Placed

namespace Graph.Holds

variable {graph : Graph} {placed : Placed} {index : Nat} {entries : Entries Placed}
  {keyNodes : List (Scalar × Nat)}

theorem outline_eq (holds : graph.Holds placed) :
    graph.outline placed.cell = placed.value.outline := by
  rw [outline, holds.resolve_cell]
  cases placed with
  | scalar value => rfl
  | leaf index value => rfl
  | array index items =>
      rw [Placed.value_array]
      cases items <;> rfl
  | object index entries keyNodes =>
      rw [Placed.value_object]
      cases entries <;> rfl

theorem kindOf_eq (holds : graph.Holds placed) : graph.kindOf placed.cell = placed.value.kind := by
  rw [kindOf, holds.resolve_cell]
  cases placed with
  | scalar value => rfl
  | leaf index value => rfl
  | array index items => rw [Placed.value_array]; rfl
  | object index entries keyNodes => rw [Placed.value_object]; rfl

theorem children_eq (holds : graph.Holds placed) :
    graph.children placed.cell = placed.children.map Placed.cell := by
  rw [children, holds.resolve_cell]
  cases placed with
  | scalar value => rfl
  | leaf index value => rfl
  | array index items => rfl
  | object index entries keyNodes =>
      rw [Placed.node, Placed.children, Entries.values, List.map_map]
      exact List.map_map

theorem object?_object (holds : graph.Holds (.object index entries keyNodes)) :
    graph.object? (.node index) = some (index, entries.mapValues Placed.cell) := by
  have resolved : graph.resolve (.node index) = _ := holds.resolve_cell
  rw [object?, resolved]
  rfl

theorem object?_none (holds : graph.Holds placed)
    (other : ∀ entries, placed.value ≠ .object entries) : graph.object? placed.cell = none := by
  have resolved := holds.resolve_cell
  cases placed with
  | scalar value => rfl
  | leaf index value =>
      rw [Placed.cell] at resolved ⊢
      rw [object?, resolved]
      rfl
  | array index items =>
      rw [Placed.cell] at resolved ⊢
      rw [object?, resolved]
      rfl
  | object index entries keyNodes => exact absurd Placed.value_object (other _)

end Graph.Holds

theorem Graph.outlines_eq {graph : Graph} {entries : Entries Placed}
    (holds : ∀ part ∈ entries.values, graph.Holds part) :
    graph.outlines (entries.mapValues Placed.cell) =
      Rewrite.outlines (entries.mapValues Placed.value) := by
  rw [outlines, Rewrite.outlines, Entries.mapValues, Entries.mapValues, List.map_map,
    Entries.mapValues, Entries.mapValues, List.map_map]
  refine List.map_congr_left fun entry member => Prod.ext rfl ?_
  exact (holds entry.2 (List.mem_map_of_mem member)).outline_eq

/-!
## Mirrored visits
-/

namespace Graph

/-- A tree that a graph holds turns into another, of a given value. -/
def TurnsInto (graph : Graph) (placed : Placed) (later : Graph) (value : Value) : Prop :=
  ∃ after, graph.Turns later placed after ∧ after.value = value

def TurnsAllInto (graph : Graph) (parts : List Placed) (later : Graph) (values : List Value) : Prop :=
  ∃ after, graph.TurnsAll later parts after ∧ after.map Placed.value = values

end Graph

/-- A visit does to a tree where a graph holds it what a walk does to the tree. -/
def Mirrors (visit : Graph → Cell → Logged Fault Graph) (walk : Value → Logged Fault Value)
    (placed : Placed) : Prop :=
  ∀ graph : Graph, graph.Holds placed → placed.Sound →
    Parallel (graph.TurnsInto placed) (visit graph placed.cell) (walk placed.value)

variable {visit next : Graph → Cell → Logged Fault Graph} {walk onward : Value → Logged Fault Value}
  {rule : Entries Outline → Except Fault Amendment} {graph : Graph} {parts : List Placed}

namespace Mirrors

/-- A visit that comes to nothing mirrors a walk that leaves the tree as it is. -/
theorem pure (placed : Placed) : Mirrors (fun graph _ => Pure.pure graph) Pure.pure placed :=
  fun _ holds sound => .pure ⟨placed, .refl holds sound, rfl⟩

theorem bind {placed : Placed} (first : Mirrors visit walk placed)
    (second : ∀ placed, Mirrors next onward placed) :
    Mirrors (fun graph cell => visit graph cell >>= fun later => next later cell)
      (fun value => walk value >>= onward) placed := by
  intro graph holds sound
  refine (first graph holds sound).bind fun middle value _ turned => ?_
  obtain ⟨between, turns, rfl⟩ := turned
  rw [← turns.cell]
  refine (second between middle turns.holds turns.sound).imp fun later value _ turned => ?_
  obtain ⟨after, again, same⟩ := turned
  exact ⟨after, turns.trans again, same⟩

end Mirrors

/-- To amend an object where it stands mirrors amending it. -/
theorem mirrors_thisObject (plain : ∀ seen amendment, rule seen = .ok amendment → amendment.Plain)
    (placed : Placed) : Mirrors (Rewrite.Shared.thisObject rule) (Rewrite.thisObject rule) placed := by
  intro graph holds sound
  rcases placed.object_or_not with ⟨index, entries, keyNodes, rfl⟩ | other
  · rw [Rewrite.Shared.thisObject, Placed.cell, holds.object?_object, Placed.value_object,
      Rewrite.thisObject]
    dsimp only
    rw [Rewrite.Shared.amendBy, Graph.outlines_eq (Graph.holds_object_iff.mp holds).2]
    cases asked : rule (Rewrite.outlines (Entries.mapValues Placed.value entries)) with
    | error fault =>
        rw [Rewrite.ask, asked]
        exact .error
    | ok amendment =>
        rw [Rewrite.ask_eq_of_ok asked, Logged.bind_eq_of_ok _ rfl, Logged.pure_notes,
          List.append_nil]
        obtain ⟨amended, same, turns⟩ := Graph.exists_amend (plain _ _ asked) holds sound
        exact .ok ⟨_, turns, by rw [Placed.value_object, same]⟩
  · have leaves : Rewrite.thisObject rule placed.value = Pure.pure placed.value :=
      Value.of_not_object (fun _ => rfl) (fun _ => rfl) placed.value other
    rw [Rewrite.Shared.thisObject, holds.object?_none other, leaves]
    exact Mirrors.pure _ graph holds sound

/-- Parts that are visited one after the other mirror a walk over their trees. -/
theorem parallel_siblings (each : ∀ part ∈ parts, Mirrors visit walk part)
    (holds : ∀ part ∈ parts, graph.Holds part) (sound : Placed.SoundParts parts) :
    Parallel (graph.TurnsAllInto parts) ((parts.map Placed.cell).foldlM visit graph)
      (Rewrite.walkItems walk (parts.map Placed.value)) := by
  induction parts generalizing graph with
  | nil => exact .pure ⟨[], .refl holds sound, rfl⟩
  | cons part rest ih =>
      obtain ⟨own, others⟩ := List.forall_mem_cons.mp each
      obtain ⟨held, heldRest⟩ := List.forall_mem_cons.mp holds
      obtain ⟨ownSound, restSound, disjoint⟩ := Placed.SoundParts.append_iff.mp
        (show Placed.SoundParts ([part] ++ rest) from sound)
      rw [List.map_cons, List.foldlM_cons, List.map_cons, Rewrite.walkItems]
      refine (own graph held (Placed.SoundParts.singleton_iff.mp ownSound)).bind
        fun middle value _ turned => ?_
      obtain ⟨after, turns, rfl⟩ := turned
      have one := Graph.TurnsAll.singleton turns
      refine (ih others (one.holds_beside heldRest disjoint) restSound).bind_pure
        fun later values _ turnedRest => ?_
      obtain ⟨afterRest, turnsRest, rfl⟩ := turnedRest
      exact ⟨after :: afterRest, one.append turnsRest heldRest sound, rfl⟩

/-- To visit what lies directly below a node mirrors a walk over its children. -/
theorem mirrors_children {placed : Placed} (each : ∀ part ∈ placed.children, Mirrors visit walk part) :
    Mirrors (fun graph cell => (graph.children cell).foldlM visit graph)
      (Rewrite.changeChildren walk) placed := by
  intro graph holds sound
  rw [Rewrite.changeChildren_eq, placed.value_children]
  dsimp only
  rw [holds.children_eq]
  cases placed with
  | scalar value => exact .pure ⟨_, .refl holds sound, rfl⟩
  | leaf index value => exact .pure ⟨_, .refl holds sound, rfl⟩
  | array index items =>
      obtain ⟨_, parts⟩ := Placed.sound_array_iff.mp sound
      obtain ⟨_, held⟩ := Graph.holds_array_iff.mp holds
      refine (parallel_siblings each held parts).bind_pure fun later values _ turned => ?_
      obtain ⟨after, turns, rfl⟩ := turned
      refine ⟨_, turns.array holds sound, ?_⟩
      rw [Placed.value_array, Placed.value_array]
      rfl
  | object index entries keyNodes =>
      obtain ⟨_, distinct, parts⟩ := Placed.sound_object_iff.mp sound
      obtain ⟨_, held⟩ := Graph.holds_object_iff.mp holds
      refine (parallel_siblings each held parts).bind_pure fun later values _ turned => ?_
      obtain ⟨after, turns, rfl⟩ := turned
      have lengths : after.length = entries.length := by
        simpa [Placed.children, Entries.values] using congrArg List.length turns.cells
      have keys : ((entries.map (·.1)).zip after).map (·.1) = entries.map (·.1) :=
        List.map_fst_zip (by simp [lengths])
      have values : Entries.values ((entries.map (·.1)).zip after) = after :=
        List.map_snd_zip (by simp [lengths])
      have turnsValues : graph.TurnsAll later (Entries.values entries)
          (Entries.values ((entries.map (·.1)).zip after)) := by
        rw [values]
        exact turns
      refine ⟨_, turnsValues.object keys holds sound, ?_⟩
      rw [Placed.value_object, Placed.value_object, Rewrite.withChildren, Entries.keys_mapValues,
        List.zip_map_right]
      rfl

/-!
## Visits of whole trees
-/

/-- To visit every object from the root down mirrors the walk from the root down. -/
theorem mirrors_everyObject (plain : ∀ seen amendment, rule seen = .ok amendment → amendment.Plain)
    (fuel : Nat) (placed : Placed) :
    Mirrors (Rewrite.Shared.everyObject rule fuel) (Rewrite.topDown rule fuel) placed := by
  induction fuel generalizing placed with
  | zero => exact Mirrors.pure placed
  | succ fuel ih =>
      exact (mirrors_thisObject plain placed).bind fun _ => mirrors_children fun part _ => ih part

/-- Visits what stands in a field of an object, if there is such a field. -/
def Rewrite.Shared.inField (field : String) (visit : Graph → Cell → Logged Fault Graph)
    (graph : Graph) (entries : Entries Cell) : Logged Fault Graph :=
  match entries.lookup (.text field) with
  | none => pure graph
  | some cell => visit graph cell

theorem Rewrite.Shared.inField_congr {field : String} {entries others : Entries Cell}
    (same : entries.lookup (.text field) = others.lookup (.text field)) :
    inField field visit graph entries = inField field visit graph others := by
  rw [inField, inField, same]

section Fields

variable {index : Nat} {entries : Entries Placed} {keyNodes : List (Scalar × Nat)} {field : String}

/-- What is visited inside a field mirrors the walk inside the field; the other fields stay. -/
theorem parallel_field
    (each : ∀ part, entries.lookup (.text field) = some part → Mirrors visit walk part)
    (holds : graph.Holds (.object index entries keyNodes))
    (sound : (Placed.object index entries keyNodes).Sound) :
    Parallel
      (fun later value => ∃ turned : Entries Placed,
        graph.Turns later (.object index entries keyNodes) (.object index turned keyNodes) ∧
          value = .object (turned.mapValues Placed.value) ∧
            ∀ other, other ≠ field → turned.lookup (.text other) = entries.lookup (.text other))
      (Rewrite.Shared.inField field visit graph (entries.mapValues Placed.cell))
      (Rewrite.inField field walk (.object (entries.mapValues Placed.value))) := by
  rw [Rewrite.Shared.inField, Entries.lookup_mapValues]
  cases located : Entries.lookup (.text field) entries with
  | none =>
      rw [Rewrite.inField_of_none (by rw [Entries.lookup_mapValues, located]; rfl)]
      exact .pure ⟨entries, .refl holds sound, rfl, fun _ _ => rfl⟩
  | some part =>
      rw [Rewrite.inField_of_some (by rw [Entries.lookup_mapValues, located]; rfl)]
      refine (each part located graph (holds.of_lookup located) (sound.of_lookup located)).bind_pure
        fun later value _ turned => ?_
      obtain ⟨after, turns, rfl⟩ := turned
      refine ⟨_, turns.entry located holds sound, ?_, fun other different => ?_⟩
      · rw [Entries.put_mapValues]
      · rw [Entries.lookup_put_text, if_neg different]

end Fields

/-- The visit that amends the properties of an element of a type. -/
private def treatShared (ruleOf : String → Option FallibleRule) (stepId type : String)
    (graph : Graph) (cell : Cell) : Logged Fault Graph :=
  match ruleOf type with
  | some rule => Rewrite.Shared.thisObject (rule stepId) graph cell
  | none => pure graph

private theorem amendProperties_eq (ruleOf : String → Option FallibleRule) (type stepId : String)
    (graph : Graph) (entries : Entries Cell) :
    Rewrite.Shared.amendProperties ruleOf type stepId graph entries =
      Rewrite.Shared.inField Treatment.propertiesField (treatShared ruleOf stepId type) graph
        entries := by
  unfold Rewrite.Shared.amendProperties Rewrite.Shared.inField treatShared
    Rewrite.Shared.thisObject
  cases Entries.lookup (.text Treatment.propertiesField) entries with
  | none => cases ruleOf type <;> rfl
  | some cell =>
      rw [Option.bind_some]
      cases ruleOf type with
      | none => rfl
      | some rule =>
          dsimp only
          cases graph.object? cell <;> rfl

private theorem mirrors_treatProperties {ruleOf : String → Option FallibleRule} {stepId : String}
    (plain : ∀ type rule, ruleOf type = some rule → ∀ seen amendment,
      rule stepId seen = .ok amendment → amendment.Plain) (type : String) (placed : Placed) :
    Mirrors (treatShared ruleOf stepId type) (Rewrite.treatProperties ruleOf stepId type) placed := by
  unfold treatShared Rewrite.treatProperties
  cases chosen : ruleOf type with
  | none => exact Mirrors.pure placed
  | some rule => exact mirrors_thisObject (plain type rule chosen) placed

/-- A visit of an element, and of what lies below it, mirrors its walk. -/
theorem mirrors_element {ruleOf : String → Option FallibleRule} {stepId : String}
    (plain : ∀ type rule, ruleOf type = some rule → ∀ seen amendment,
      rule stepId seen = .ok amendment → amendment.Plain)
    (fuel : Nat) (placed : Placed) (within : placed.value.Within fuel) :
    Mirrors (Rewrite.Shared.element ruleOf stepId fuel) (Rewrite.element ruleOf stepId) placed := by
  induction fuel generalizing placed with
  | zero =>
      intro graph holds sound
      cases placed with
      | scalar value => exact Mirrors.pure _ graph holds sound
      | leaf index value => exact Mirrors.pure _ graph holds sound
      | array index items => rw [Placed.value_array] at within; cases within
      | object index entries keyNodes => rw [Placed.value_object] at within; cases within
  | succ fuel ih =>
      intro graph holds sound
      rcases placed.object_or_not with ⟨index, entries, keyNodes, rfl⟩ | other
      · rw [Placed.value_object] at within ⊢
        obtain ⟨_, distinct, _⟩ := Placed.sound_object_iff.mp sound
        have other : Treatment.childrenField ≠ Treatment.propertiesField := by decide
        rw [Rewrite.Shared.element, Placed.cell, holds.object?_object,
          Rewrite.element_object (distinct.mapValues Placed.value)]
        dsimp only
        rw [Graph.outlines_eq (Graph.holds_object_iff.mp holds).2]
        refine .bind_same _ fun visit _ => .bind_same _ fun _ _ => ?_
        rw [amendProperties_eq]
        refine (parallel_field (fun part _ => mirrors_treatProperties plain _ part) holds sound).bind
          fun amended value _ turned => ?_
        obtain ⟨turned, turns, rfl, same⟩ := turned
        -- The properties may have changed; the children are those that the element had.
        have below : ∀ part, turned.lookup (.text Treatment.childrenField) = some part →
            Mirrors (fun graph cell => (graph.children cell).foldlM
              (Rewrite.Shared.element ruleOf stepId fuel) graph)
              (Rewrite.elements ruleOf stepId) part := by
          intro part located
          rw [funext Rewrite.elements_eq_changeChildren]
          rw [same _ other] at located
          have inside : part.value.Within fuel := within.children _ (List.mem_map_of_mem
            (Entries.mem_of_lookup_text (by rw [Entries.lookup_mapValues, located]; rfl)))
          exact mirrors_children fun child member =>
            ih child (Placed.within_of_mem_children inside member)
        have onward := parallel_field below turns.holds turns.sound
        have sameCell : (turned.mapValues Placed.cell).lookup (.text Treatment.childrenField) =
            (Entries.mapValues Placed.cell entries).lookup (.text Treatment.childrenField) := by
          rw [Entries.lookup_mapValues, Entries.lookup_mapValues, same _ other]
        rw [Rewrite.Shared.inField_congr sameCell] at onward
        refine onward.imp fun later value _ turnedAgain => ?_
        obtain ⟨after, again, rfl, _⟩ := turnedAgain
        exact ⟨_, turns.trans again, Placed.value_object⟩
      · have leaves : Rewrite.element ruleOf stepId placed.value = Pure.pure placed.value :=
          Value.of_not_object (fun _ => rfl) (fun _ => rfl) placed.value other
        rw [Rewrite.Shared.element, holds.object?_none other, leaves]
        exact Mirrors.pure _ graph holds sound

end Uplift
