import Uplift.Graph

/-!
# Anchors

The nodes of a graph that a text names, because they occur more than once. They are numbered in the
order in which they occur for the second time.
-/

set_option autoImplicit false

namespace Uplift

namespace Graph

/-- The node of a key, if the key has one. -/
def keyNode? (keyNodes : List (Scalar × Nat)) (key : Scalar) : Option Nat :=
  (keyNodes.find? fun entry => key.sameKey entry.1).map (·.2)

/-- The nodes that the parts of a node refer to, in the order in which they are written. -/
def references : GraphNode → List Nat
  | .leaf _ => []
  | .array items => items.flatMap ofCell
  | .object entries keyNodes =>
      entries.flatMap fun (key, cell) => (keyNode? keyNodes key).toList ++ ofCell cell
where
  ofCell : Cell → List Nat
    | .scalar _ => []
    | .node index => [index]

end Graph

namespace Yaml

/-- The nodes that occurred, and those that occurred again, each once and the last one first. -/
structure Occurrences where
  seen : List Nat
  again : List Nat

namespace Occurrences

/-- Goes through the nodes from a place down. What lies below a node counts once, however often the
node occurs. `fuel` bounds the depth. -/
def visit (graph : Graph) : Nat → Occurrences → Nat → Occurrences
  | 0, occurrences, _ => occurrences
  | fuel + 1, ⟨seen, again⟩, index =>
      if seen.contains index then
        if again.contains index then ⟨seen, again⟩ else ⟨seen, index :: again⟩
      else
        (Graph.references (graph.resolve (.node index))).foldl (visit graph fuel)
          ⟨index :: seen, again⟩

end Occurrences

/-- The nodes of a graph that need an anchor, in the order of their numbers. -/
def anchored (graph : Graph) : List Nat :=
  match graph.root with
  | .scalar _ => []
  | .node index =>
      (Occurrences.visit graph (graph.nodes.size + 1) ⟨[], []⟩ index).again.reverse

/-- The name of the anchor with a number: three digits at least. -/
def anchorName (number : Nat) : String :=
  let digits := toString number
  "id" ++ String.ofList (List.replicate (3 - digits.length) '0') ++ digits

end Yaml

end Uplift
