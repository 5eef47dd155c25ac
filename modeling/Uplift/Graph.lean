import Uplift.Value

/-!
# Documents with shared parts

Where a text names a part once and refers to it elsewhere, the document is no tree: both places hold
the same part, and a change of it shows at both. Such a document is held as a graph, a table of
nodes that refer to each other by their places in the table. Scalars stand in their places
themselves, except for those that a text can refer to.
-/

set_option autoImplicit false

namespace Uplift

/-- What stands in a place of a document: a scalar, or a reference to a node. -/
inductive Cell where
  | scalar (value : Scalar)
  | node (index : Nat)
deriving DecidableEq, Inhabited

/-- A node that can be referred to. -/
inductive GraphNode where
  | leaf (value : Scalar)
  | array (items : List Cell)
  /-- An object. Keys that are dates or moments can be referred to as well, and so they may have
  nodes of their own. -/
  | object (entries : Entries Cell) (keyNodes : List (Scalar × Nat))
deriving Inhabited

/-- A table of nodes, and what stands at the root. -/
structure Graph where
  nodes : Array GraphNode
  root : Cell

namespace Graph

/-- The node that a cell refers to; a scalar is a leaf of its own. -/
def resolve (graph : Graph) (cell : Cell) : GraphNode :=
  match cell with
  | .scalar value => .leaf value
  | .node index => graph.nodes.getD index (.leaf .null)

/-- The tree below a cell. No way down that does not turn in a circle passes more nodes than there
are, and so much `fuel` reaches every leaf. -/
def treeBelow (graph : Graph) (fuel : Nat) (cell : Cell) : Value :=
  match fuel with
  | 0 => .null
  | fuel + 1 =>
      match graph.resolve cell with
      | .leaf value => .scalar value
      | .array items => .array (items.map (graph.treeBelow fuel))
      | .object entries _ => .object (entries.mapValues (graph.treeBelow fuel))

def tree (graph : Graph) : Value :=
  graph.treeBelow (graph.nodes.size + 1) graph.root

def addNode (graph : Graph) (node : GraphNode) : Graph × Cell :=
  ({ graph with nodes := graph.nodes.push node }, .node graph.nodes.size)

def setNode (graph : Graph) (index : Nat) (node : GraphNode) : Graph :=
  { graph with nodes := graph.nodes.setIfInBounds index node }

/-- Replaces the entries of an object; keys that stay keep their nodes. -/
def setEntries (graph : Graph) (index : Nat) (entries : Entries Cell) : Graph :=
  match graph.resolve (.node index) with
  | .object _ keyNodes => graph.setNode index (.object entries keyNodes)
  | _ => graph.setNode index (.object entries [])

mutual

/-- Adds the nodes of a tree, none of which is shared. -/
def addTree (graph : Graph) : Value → Graph × Cell
  | .scalar value => (graph, .scalar value)
  | .array items =>
      let (graph, cells) := addItems graph items
      graph.addNode (.array cells)
  | .object entries =>
      let (graph, cells) := addEntries graph entries
      graph.addNode (.object cells [])

def addItems (graph : Graph) : List Value → Graph × List Cell
  | [] => (graph, [])
  | item :: rest =>
      let (graph, cell) := addTree graph item
      let (graph, cells) := addItems graph rest
      (graph, cell :: cells)

def addEntries (graph : Graph) : List (Scalar × Value) → Graph × Entries Cell
  | [] => (graph, [])
  | (key, value) :: rest =>
      let (graph, cell) := addTree graph value
      let (graph, cells) := addEntries graph rest
      (graph, (key, cell) :: cells)

end

def ofTree (value : Value) : Graph :=
  let (graph, root) := addTree ⟨#[], .scalar .null⟩ value
  { graph with root := root }

end Graph

end Uplift
