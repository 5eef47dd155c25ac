import Uplift.Graph
import Uplift.Yaml.Node
import Uplift.Yaml.Part.Grammar
import Uplift.Yaml.Scalar
import Uplift.Yaml.Token.Stream

/-!
# Reading YAML documents

The values of nodes. A node becomes a node of a graph at the same place, so that what is shared in
the text is shared in the graph; scalars other than dates and moments stand where they are used.
Containers are read level by level: those of a level are made, and then filled in the order in which
they came up.
-/

set_option autoImplicit false

namespace Uplift.Yaml

/-- The text of a node as a scalar. A mapping with a default value has the text of that. -/
def Nodes.scalarText? (nodes : Nodes) : Nat → Nat → Option String
  | 0, _ => none
  | fuel + 1, index =>
      match (nodes.get index).content with
      | .scalar text => some text
      | .sequence _ => none
      | .mapping entries =>
          match entries.find? fun entry => (nodes.get entry.1).tag = .value with
          | none => none
          | some entry => nodes.scalarText? fuel entry.2

/-- How far the reading of a document has come. -/
structure Reading where
  source : Nat
  /-- The nodes; a mapping that was filled holds what it merges. -/
  nodes : Nodes
  /-- What each node was read as, if it came up already. -/
  cells : Array (Option Cell)
  made : Array GraphNode
  /-- Containers that came up and are not filled yet, the last one first. -/
  pending : List Nat

namespace Reading

/-- Reading with a state, which may fail. -/
abbrev Action := StateT Reading (Except Error)

def start (source : Nat) (nodes : Nodes) : Reading :=
  let count := nodes.table.size
  ⟨source, nodes, Array.replicate count none, Array.replicate count (.leaf .null), []⟩

/-- The not-a-number of a node; it is no other one's. -/
def ownNaN (reading : Reading) (index : Nat) : Binary64 :=
  .nanNumbered (reading.source * twoTo 32 + index + 1)

def node (index : Nat) : Action Node := do
  let reading ← get
  return reading.nodes.get index

def change (index : Nat) (node : Node) : Action Unit :=
  modify fun reading =>
    { reading with nodes := reading.nodes.fill index node.tag node.content }

def remember (index : Nat) (cell : Cell) : Action Cell := do
  modify fun reading => { reading with cells := reading.cells.setIfInBounds index (some cell) }
  return cell

def make (index : Nat) (node : GraphNode) : Action Unit :=
  modify fun reading => { reading with made := reading.made.setIfInBounds index node }

/-- The value of a scalar in its place; dates and moments are leaves of the graph. -/
def scalarCell (index : Nat) (value : Scalar) : Action Cell :=
  match value with
  | .date _ | .moment _ => do
      make index (.leaf value)
      return .node index
  | _ => return .scalar value

/-- Carries out the merges of a mapping, and gives its entries. Merged entries come first; of a list
of mappings, later ones come before earlier ones, so that the earlier take precedence. The key of a
default value becomes a text. `fuel` bounds how deep mappings merge each other. -/
def flatten : Nat → Nat → Action (List (Nat × Nat))
  | 0, _ => return []
  | fuel + 1, index => do
      let mapping ← node index
      match mapping.content with
      | .mapping entries => do
          let parts ← entries.mapM fun entry => do
            let key ← node entry.1
            match key.tag with
            | .merge => do
                let value ← node entry.2
                match value.content with
                | .mapping _ => return (← flatten fuel entry.2, [])
                | .sequence items => do
                    let parts ← items.mapM (flatten fuel)
                    return (parts.reverse.flatten, [])
                | .scalar _ => throw .badMerge
            | .value => do
                change entry.1 { key with tag := .text }
                return ([], [entry])
            | _ => return ([], [entry])
          let entries := (parts.map (·.1)).flatten ++ (parts.map (·.2)).flatten
          change index { mapping with content := .mapping entries }
          return entries
      | _ => throw .badMerge

def read (index : Nat) : Action Cell := do
  let reading ← get
  match reading.cells.getD index none with
  | some cell => return cell
  | none =>
      let nodes := reading.nodes
      let tag := (nodes.get index).tag
      match tag with
      | .sequence | .mapping => do
          set { reading with pending := index :: reading.pending }
          remember index (.node index)
      | _ =>
          match tag, nodes.scalarText? (nodes.table.size + 1) index, (nodes.get index).content with
          | .merge, _, _ | .value, _, _ | .unknown _, _, _ => throw (.unknownTag tag.name)
          | _, none, _ => throw (.misplacedTag tag.name)
          | .timestamp, _, .mapping _ =>
              throw (.fault (.other "TypeError" "expected string or bytes-like object, got 'list'"))
          | _, some text, _ => do
              let value ← tag.read (reading.ownNaN index) text
              let cell ← scalarCell index value
              remember index cell

/-- Reads a node as a key, which may have a node of its own in the graph. -/
def readKey (index : Nat) : Action (Scalar × Option Nat) := do
  let key ← node index
  let cell ← read index
  match cell with
  | .scalar value => return (value, none)
  | .node index =>
      let reading ← get
      match reading.made.getD index (.leaf .null), key.tag with
      | _, .sequence | _, .mapping => throw .badKey
      | .leaf value, _ => return (value, some index)
      | _, _ => throw .badKey

def fill (index : Nat) : Action Unit := do
  let container ← node index
  match container.tag, container.content with
  | .sequence, .sequence items => do
      let cells ← items.mapM read
      make index (.array cells)
  | .mapping, .mapping _ => do
      let reading ← get
      let entries ← flatten (reading.nodes.table.size + 1) index
      let read ← entries.mapM fun entry => do
        let (key, keyNode) ← readKey entry.1
        let cell ← read entry.2
        pure (key, keyNode, cell)
      let pairs := read.map fun (key, _, cell) => (key, cell)
      let keyNodes := read.filterMap fun (key, keyNode, _) => keyNode.map fun index => (key, index)
      make index (.object (Entries.ofPairs pairs) keyNodes)
  | tag, _ => throw (.misplacedTag tag.name)

/-- Fills the containers that came up, and then those that came up in them. There are no more
levels than nodes, which bounds `fuel`. -/
def levels : Nat → Action Unit
  | 0 => pure ()
  | fuel + 1 => do
      let reading ← get
      if reading.pending.isEmpty then pure ()
      else do
        set { reading with pending := [] }
        reading.pending.reverse.forM fill
        levels fuel

def document (source : Nat) (nodes : Nodes) (root : Nat) : Except Error Graph := do
  let action : Action Cell := do
    let cell ← read root
    levels (nodes.table.size + 1)
    return cell
  let (cell, reading) ← action.run (start source nodes)
  return ⟨reading.made, cell⟩

end Reading

/-- Reads the document that a text holds. A text without a document is null. `source` numbers the
texts whose values may meet: what is not-a-number in one is none of those in another. -/
def read (source : Nat) (text : String) : Except Error Graph := do
  match ← Part.ofTokens (tokens text) with
  | none => return ⟨#[], .scalar .null⟩
  | some part =>
      let (root, nodes) := Nodes.ofPart part
      Reading.document source nodes root

end Uplift.Yaml
