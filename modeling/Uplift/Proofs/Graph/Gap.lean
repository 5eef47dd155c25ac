import Uplift.Proofs.Engine.Gap
import Uplift.Proofs.Graph.Migrating

/-!
# Gaps in documents that are held as graphs

A gap at version 102 may be filled late in a document that is held as a graph, as long as the graph
shares no part. If it shares a part then the order of the versions shows: the properties of a loop
may stand under a service call as well, and what version 103 takes away from the one is missing from
the other. The versions then leave something for version 102 to do, even in their order.
-/

set_option autoImplicit false

namespace Uplift

open Logged (Parallel)

variable {graph : Graph} {value last : Value} {fields : FieldNames} {context : Context}

theorem Graph.map_tree_of_parallel {action : Logged Fault Graph} {other : Logged Fault Value}
    (parallel : Parallel StandsFor action other) : action.outcome.map tree = other.outcome := by
  cases parallel with
  | error => rfl
  | ok stands => exact congrArg Except.ok stands.tree_eq

namespace Chain

open Rewrite

abbrev graphStep102 (fields : FieldNames) : Step Graph := v102.toStep (onGraph fields)

abbrev graphStep103 (fields : FieldNames) : Step Graph := v103.toStep (onGraph fields)

/-- Versions 102 and 103 of a graph in their order. -/
def graphInOrder (fields : FieldNames) (context : Context) (graph : Graph) : Logged Fault Graph :=
  (graphStep102 fields).apply context graph >>= (graphStep103 fields).apply context

/-- Version 102 of a graph after version 103. -/
def graphOutOfOrder (fields : FieldNames) (context : Context) (graph : Graph) : Logged Fault Graph :=
  (graphStep103 fields).apply context graph >>= (graphStep102 fields).apply context

private theorem known102 : v102 ∈ Family.chain.blueprints := .tail _ (.head _)

private theorem known103 : v103 ∈ Family.chain.blueprints := .tail _ (.tail _ (.head _))

theorem parallel_graphInOrder (stands : graph.StandsFor value) :
    Parallel Graph.StandsFor (graphInOrder fields context graph) (inOrder fields context value) :=
  (Family.parallel_step known102 fields context stands).bind fun _ _ _ treated =>
    Family.parallel_step known103 fields context treated

theorem parallel_graphOutOfOrder (stands : graph.StandsFor value) :
    Parallel Graph.StandsFor (graphOutOfOrder fields context graph)
      (outOfOrder fields context value) :=
  (Family.parallel_step known103 fields context stands).bind fun _ _ _ tidied =>
    Family.parallel_step known102 fields context tidied

/-- Where no part is shared, one order succeeds exactly if the other does, and with the same tree. -/
theorem graphOutOfOrder_eq_ok_iff (stands : graph.StandsFor value) :
    (graphOutOfOrder fields context graph).outcome.map Graph.tree = .ok last ↔
      (graphInOrder fields context graph).outcome.map Graph.tree = .ok last := by
  rw [Graph.map_tree_of_parallel (parallel_graphOutOfOrder stands),
    Graph.map_tree_of_parallel (parallel_graphInOrder stands), outOfOrder_eq_ok_iff]

/-- Where no part is shared and the versions succeed, both orders give the same warnings. -/
theorem warnings_graphOutOfOrder (stands : graph.StandsFor value)
    (ended : (graphInOrder fields context graph).outcome.map Graph.tree = .ok last) :
    Journal.warnings (graphOutOfOrder fields context graph).notes =
      Journal.warnings (graphInOrder fields context graph).notes := by
  rw [Graph.map_tree_of_parallel (parallel_graphInOrder stands), ← outOfOrder_eq_ok_iff] at ended
  obtain ⟨_, done, _⟩ := Logged.bind_outcome_ok.mp ended
  rw [← (parallel_graphOutOfOrder stands).notes_eq, ← (parallel_graphInOrder stands).notes_eq]
  exact warnings_outOfOrder done

/-!
## A shared part
-/

/-- A chain of a service call and a loop with their properties. -/
def callAndLoop (call loop : Entries Value) : Value :=
  .object [(.text "content", .object [(.text "elements", .array
    [.object [(.text "type", .text "service-call"), (.text "properties", .object call)],
      .object [(.text "type", .text "loop-2"), (.text "properties", .object loop)]])])]

/-- Such a chain whose loop has for its properties what stands in the field `before` of the call. -/
def sharedProperties : Graph where
  nodes := #[
    .object [(.text "maxLoopIteration", .scalar .null)] [],
    .object [(.text "before", .node 0)] [],
    .object [(.text "type", .scalar (.text "service-call")), (.text "properties", .node 1)] [],
    .object [(.text "type", .scalar (.text "loop-2")), (.text "properties", .node 0)] [],
    .array [.node 2, .node 3],
    .object [(.text "elements", .node 4)] [],
    .object [(.text "content", .node 5)] []]
  root := .node 6

/-- In order, version 102 finds something in the field, and version 103 then takes it away. -/
theorem inOrder_sharedProperties :
    (graphInOrder .standard (.ofFamily label) sharedProperties).outcome.map Graph.tree =
      .ok (callAndLoop [(.text "before", .object [])] []) := rfl

/-- After version 103 the field is empty, and version 102 drops it. -/
theorem outOfOrder_sharedProperties :
    (graphOutOfOrder .standard (.ofFamily label) sharedProperties).outcome.map Graph.tree =
      .ok (callAndLoop [] []) := rfl

/-- What the versions leave in order is changed by version 102 once more. -/
theorem step102_inOrder_sharedProperties :
    (graphInOrder .standard (.ofFamily label) sharedProperties >>=
        (graphStep102 .standard).apply (.ofFamily label)).outcome.map Graph.tree =
      .ok (callAndLoop [] []) := rfl

/-- So this graph shares a part: where none is shared the orders come to the same. -/
theorem not_standsFor_sharedProperties : ¬ sharedProperties.StandsFor value := by
  intro stands
  have inverted := (graphOutOfOrder_eq_ok_iff stands).mpr inOrder_sharedProperties
  rw [outOfOrder_sharedProperties] at inverted
  cases inverted

end Chain

end Uplift
