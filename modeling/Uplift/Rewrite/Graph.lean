import Uplift.Graph
import Uplift.Rewrite.Treatment

/-!
# Treatments of documents with shared parts

Treatments carried out on a document that is held as a graph. A node is amended in its place in the
table, so that the change shows wherever the node is referred to. A walk visits a node as often as
there are ways to it, each time as the visits before have left it. The first argument of a walk
bounds how deep it goes.
-/

set_option autoImplicit false

namespace Uplift

namespace Graph

def outline (graph : Graph) (cell : Cell) : Outline :=
  match graph.resolve cell with
  | .leaf value => .scalar value
  | .array items => .array items.isEmpty
  | .object entries _ => .object entries.isEmpty

def outlines (graph : Graph) (entries : Entries Cell) : Entries Outline :=
  entries.mapValues graph.outline

def kindOf (graph : Graph) (cell : Cell) : Kind :=
  match graph.resolve cell with
  | .leaf _ => .scalar
  | .array _ => .array
  | .object _ _ => .object

/-- The place of an object in the table and its entries, if a cell refers to one. -/
def object? (graph : Graph) (cell : Cell) : Option (Nat × Entries Cell) :=
  match cell with
  | .scalar _ => none
  | .node index =>
      match graph.resolve cell with
      | .object entries _ => some (index, entries)
      | _ => none

def children (graph : Graph) (cell : Cell) : List Cell :=
  match graph.resolve cell with
  | .leaf _ => []
  | .array items => items
  | .object entries _ => entries.values

/-- A bound on the depth of walks, also if a rule adds an empty container. -/
def depthBound (graph : Graph) : Nat := graph.nodes.size + 2

def edit (state : Graph × Entries Cell) (change : Edit Value) : Graph × Entries Cell :=
  let (graph, entries) := state
  match change with
  | .drop field => (graph, Edit.apply entries (.drop field))
  | .rename old new => (graph, Edit.apply entries (.rename old new))
  | .set field value =>
      let (graph, cell) := graph.addTree value
      (graph, Edit.apply entries (.set field cell))

def amend (graph : Graph) (index : Nat) (entries : Entries Cell) (amendment : Amendment) : Graph :=
  let (graph, entries) := amendment.edits.foldl edit (graph, entries)
  graph.setEntries index entries

def shiftCell (offset : Nat) : Cell → Cell
  | .scalar value => .scalar value
  | .node index => .node (index + offset)

def shiftNode (offset : Nat) : GraphNode → GraphNode
  | .leaf value => .leaf value
  | .array items => .array (items.map (shiftCell offset))
  | .object entries keyNodes =>
      .object (entries.mapValues (shiftCell offset))
        (keyNodes.map fun (key, index) => (key, index + offset))

/-- The entries of an object, each with a copy of the table of its own behind it, so that nothing
is shared between two entries any more. -/
def separate (graph : Graph) (entries : Entries Cell) : Array GraphNode × Entries Cell :=
  entries.foldl
    (fun (nodes, separated) (key, cell) =>
      match cell with
      | .scalar _ => (nodes, separated ++ [(key, cell)])
      | .node _ =>
          (nodes ++ graph.nodes.map (shiftNode nodes.size),
            separated ++ [(key, shiftCell nodes.size cell)]))
    (#[], [])

/-- Writes a text under the migrations field of the content, or of the root if the content is no
object. Nothing is written into a document that is no object. -/
def mark (fields : FieldNames) (text : String) (graph : Graph) : Graph :=
  match graph.object? graph.root with
  | none => graph
  | some (rootIndex, root) =>
      let write (index : Nat) (entries : Entries Cell) : Graph :=
        graph.setEntries index (entries.put (.text fields.migrations) (.scalar (.text text)))
      match (root.lookup (.text fields.content)).bind graph.object? with
      | some (index, content) => write index content
      | none => write rootIndex root

end Graph

instance : Representation Graph where
  tree := Graph.tree
  mark := Graph.mark

namespace Rewrite.Shared

/-- Amends an object as a rule asks for, and makes its notes. -/
def amendBy (rule : Entries Outline → Except Fault Amendment) (graph : Graph) (index : Nat)
    (entries : Entries Cell) : Logged Fault Graph :=
  match rule (graph.outlines entries) with
  | .error fault => Logged.fail fault
  | .ok amendment => ⟨amendment.notes, .ok (graph.amend index entries amendment)⟩

/-- Applies a rule to a node alone, if it is an object. -/
def thisObject (rule : Entries Outline → Except Fault Amendment) (graph : Graph) (cell : Cell) :
    Logged Fault Graph :=
  match graph.object? cell with
  | none => pure graph
  | some (index, entries) => amendBy rule graph index entries

def everyObject (rule : Entries Outline → Except Fault Amendment) :
    Nat → Graph → Cell → Logged Fault Graph
  | 0, graph, _ => pure graph
  | fuel + 1, graph, cell => do
      let amended ← thisObject rule graph cell
      (amended.children cell).foldlM (everyObject rule fuel) amended

/-- Amends the properties of an element by the rule of its type, if they are an object and there is
such a rule. -/
def amendProperties (ruleOf : String → Option FallibleRule) (elementType stepId : String)
    (graph : Graph) (element : Entries Cell) : Logged Fault Graph :=
  match ruleOf elementType,
      (element.lookup (.text Treatment.propertiesField)).bind graph.object? with
  | some rule, some (index, properties) => amendBy (rule stepId) graph index properties
  | _, _ => pure graph

def element (ruleOf : String → Option FallibleRule) (stepId : String) :
    Nat → Graph → Cell → Logged Fault Graph
  | 0, graph, _ => pure graph
  | fuel + 1, graph, cell =>
      match graph.object? cell with
      | none => pure graph
      | some (_, entries) => do
          let visit ← Logged.ofExcept (Treatment.Visit.read (graph.outlines entries))
          Logged.note (visit.note stepId)
          let amended ← amendProperties ruleOf visit.elementType stepId graph entries
          match entries.lookup (.text Treatment.childrenField) with
          | none => pure amended
          | some below =>
              (amended.children below).foldlM (element ruleOf stepId fuel) amended

def elements (fields : FieldNames) (graph : Graph) : List Cell :=
  let found := do
    let (_, root) ← graph.object? graph.root
    let (_, content) ← graph.object? (← root.lookup (.text fields.content))
    content.lookup (.text Treatment.elementsField)
  (found.map graph.children).getD []

/-- The operations of the content. Content that is absent or null has none, and neither has content
without an entry for them; any other content must be an object, and they an array. -/
def operations (fields : FieldNames) (graph : Graph) : Except Fault (List Cell) :=
  match graph.object? graph.root with
  | none => .error (.noEntries (graph.treeBelow graph.depthBound graph.root).qualifiedTypeName)
  | some (_, root) =>
      match root.lookup (.text fields.content) with
      | none | some (.scalar .null) => .ok []
      | some content =>
          match graph.object? content with
          | none => .error (.expectedObject fields.content (graph.kindOf content))
          | some (_, entries) =>
              match entries.lookup (.text Treatment.operationsField) with
              | none | some (.scalar .null) => .ok []
              | some found =>
                  match graph.resolve found with
                  | .array items => .ok items
                  | _ =>
                      .error
                        (.expectedArray (Treatment.operationsPlace fields) (graph.kindOf found))

/-- Moves all fields but the identifier and the name into the content. Each field of the root is
copied on its own. -/
def promote (fields : FieldNames) (graph : Graph) : Except Fault Graph :=
  match graph.object? graph.root with
  | none => .error (.expectedObject "$" (graph.kindOf graph.root))
  | some (_, entries) =>
      let (nodes, separated) := graph.separate entries
      let (graph, content) :=
        Graph.addNode ⟨nodes, .scalar .null⟩ (.object (Promotion.moved fields separated) [])
      let (graph, root) := graph.addNode (.object (Promotion.root fields content separated) [])
      .ok { graph with root := root }

end Rewrite.Shared

open Rewrite.Shared in
def Rewrite.onGraph (fields : FieldNames) (stepId : String) :
    Treatment → Graph → Logged Fault Graph
  | .promote, graph => Logged.ofExcept (promote fields graph)
  | .everyObject rule, graph =>
      everyObject (rule stepId) graph.depthBound graph graph.root
  | .eachElement rule, graph =>
      (elements fields graph).foldlM (thisObject (rule stepId)) graph
  | .elementProperties ruleOf, graph =>
      (elements fields graph).foldlM (element ruleOf stepId graph.depthBound) graph
  | .eachOperation rule, graph => do
      let cells ← Logged.ofExcept (operations fields graph)
      cells.foldlM (thisObject (rule stepId)) graph

end Uplift
