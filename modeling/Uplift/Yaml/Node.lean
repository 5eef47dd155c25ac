import Uplift.Yaml.Part
import Uplift.Yaml.Tag

/-!
# Nodes of a YAML document

What the parts of a document stand for once aliases are followed and types are settled: a table of
nodes that refer to each other by their places in the table. An alias has no node of its own.
-/

set_option autoImplicit false

namespace Uplift.Yaml

/-- The content of a node; items, keys and values are given by their places in the table. -/
inductive Content where
  | scalar (text : String)
  | sequence (items : List Nat)
  | mapping (entries : List (Nat × Nat))
deriving Inhabited

/-- A node with its type. -/
structure Node where
  tag : Tag
  content : Content

/-- The nodes of a document up to a point in its text, and the anchors given so far. -/
structure Nodes where
  table : Array Node
  anchors : List (String × Nat)

namespace Nodes

def empty : Nodes := ⟨#[], []⟩

def get (nodes : Nodes) (index : Nat) : Node :=
  nodes.table.getD index ⟨.null, .scalar ""⟩

def anchored? (nodes : Nodes) (name : String) : Option Nat :=
  (nodes.anchors.find? fun entry => entry.1 = name).map (·.2)

/-- Adds a node with its anchor, if it has one. -/
def add (nodes : Nodes) (anchor : Option String) (node : Node) : Nat × Nodes :=
  let index := nodes.table.size
  let named := anchor.toList.map fun name => (name, index)
  (index, ⟨nodes.table.push node, named ++ nodes.anchors⟩)

def fill (nodes : Nodes) (index : Nat) (tag : Tag) (content : Content) : Nodes :=
  { nodes with table := nodes.table.setIfInBounds index ⟨tag, content⟩ }

end Nodes

/-- The type of a part: that of its tag, or `standard` if it has none. A tag that is an exclamation
mark alone says no more than none, and a scalar with it is taken as a plain one. -/
def Properties.typeOf (properties : Properties) (standard whenMarked : Tag) : Tag :=
  match properties.tag with
  | .none => standard
  | .some name => if name = "!" then whenMarked else .ofName name

namespace Nodes

mutual

/-- Adds the nodes of a part, and tells the place of its own. An alias has the place of the part
that it stands for. -/
def addPart (nodes : Nodes) : Part → Nat × Nodes
  | .alias name =>
      match nodes.anchored? name with
      | none => nodes.add none ⟨.null, .scalar ""⟩
      | some index => (index, nodes)
  | .scalar properties plain text =>
      let shown := Tag.ofPlain text
      let tag := properties.typeOf (if plain then shown else .text) shown
      nodes.add properties.anchor ⟨tag, .scalar text⟩
  | .sequence properties items =>
      let tag := properties.typeOf .sequence .sequence
      let (index, nodes) := nodes.add properties.anchor ⟨tag, .sequence []⟩
      let (indices, nodes) := addParts nodes items
      (index, nodes.fill index tag (.sequence indices))
  | .mapping properties entries =>
      let tag := properties.typeOf .mapping .mapping
      let (index, nodes) := nodes.add properties.anchor ⟨tag, .mapping []⟩
      let (indices, nodes) := addEntries nodes entries
      (index, nodes.fill index tag (.mapping indices))

def addParts (nodes : Nodes) : List Part → List Nat × Nodes
  | [] => ([], nodes)
  | part :: rest =>
      let (index, nodes) := addPart nodes part
      let (indices, nodes) := addParts nodes rest
      (index :: indices, nodes)

def addEntries (nodes : Nodes) : List (Part × Part) → List (Nat × Nat) × Nodes
  | [] => ([], nodes)
  | (key, value) :: rest =>
      let (keyIndex, nodes) := addPart nodes key
      let (valueIndex, nodes) := addPart nodes value
      let (indices, nodes) := addEntries nodes rest
      ((keyIndex, valueIndex) :: indices, nodes)

end

/-- The nodes of a document with the given content, and the place of its root. -/
def ofPart (part : Part) : Nat × Nodes := empty.addPart part

end Nodes

end Uplift.Yaml
