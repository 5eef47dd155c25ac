import Uplift.Yaml.Writing.Anchors
import Uplift.Yaml.Writing.Pen

/-!
# Writing documents

A graph as a YAML text in block style, with entries in order. Nested containers are indented by two
columns; a sequence that is the value of a key needs none. A node that occurs more than once is
written where it occurs first, under an anchor, and referred to from then on.
-/

set_option autoImplicit false

namespace Uplift.Yaml

/-- A document that is being written: the text so far and the nodes that are in it. -/
structure Draft where
  pen : Pen
  written : List Nat

/-- Where a node is written. -/
inductive Position where
  | root
  | item
  /-- A key on the line of its value, which is never folded. -/
  | simpleKey
  | key
  | value
deriving DecidableEq

namespace Position

def isInMapping : Position → Bool
  | root | item => false
  | simpleKey | key | value => true

end Position

namespace Draft

def mapPen (draft : Draft) (change : Pen → Pen) : Draft :=
  { draft with pen := change draft.pen }

/-- The indentation inside something that has the given one. There is none around the root; inside
it, scalars are indented and collections are not. -/
def innerIndent (isScalar : Bool) : Option Nat → Nat
  | none => if isScalar then 2 else 0
  | some column => column + 2

/-- The anchor of a node, if it needs one. -/
def anchor? (anchors : List Nat) (index : Nat) : Option String :=
  (anchors.findIdx? (· == index)).map fun place => anchorName (place + 1)

def scalar (draft : Draft) (indent : Option Nat) (position : Position) (value : Scalar) : Draft :=
  draft.mapPen fun pen =>
    let written := WrittenScalar.ofScalar value
    let pen := pen.scalar (innerIndent true indent) (position != .simpleKey) written
    if position = .root && written.style = .plain then { pen with openEnded := true } else pen

/-- Writes a reference to a node that is written already, or its anchor if it needs one. The second
part tells whether the node itself is still to be written. -/
def refer (anchors : List Nat) (draft : Draft) (index : Nat) : Draft × Bool :=
  match anchor? anchors index with
  | none => (draft, true)
  | some name =>
      if draft.written.contains index then
        (draft.mapPen fun pen => pen.indicator ("*" ++ name) true false, false)
      else
        (⟨draft.pen.indicator ("&" ++ name) true false, index :: draft.written⟩, true)

/-- Writes a key, which may have a node of its own. -/
def key (anchors : List Nat) (draft : Draft) (indent : Option Nat) (position : Position)
    (keyNode : Option Nat) (value : Scalar) : Draft :=
  match keyNode with
  | none => draft.scalar indent position value
  | some index =>
      let (draft, isNew) := refer anchors draft index
      if isNew then draft.scalar indent position value else draft

/-- Writes a key with the mark of its value. A key that does not fit in front of the value has
lines of its own. -/
def keyWithMark (anchors : List Nat) (draft : Draft) (column : Nat) (keyNode : Option Nat)
    (value : Scalar) : Draft :=
  let draft := draft.mapPen fun pen => pen.indent column
  let anchor := keyNode.bind (anchor? anchors)
  let isKnown := anchor.isSome && keyNode.any draft.written.contains
  if isKnown || (WrittenScalar.ofScalar value).isSimpleKey anchor then
    (draft.key anchors (some column) .simpleKey keyNode value).mapPen fun pen =>
      pen.indicator ":" false false
  else
    let draft := draft.mapPen fun pen => pen.indicator "?" true true
    (draft.key anchors (some column) .key keyNode value).mapPen fun pen =>
      (pen.indent column).indicator ":" true true

/-- Writes what a cell refers to, inside something of the given indentation. `fuel` bounds the
depth. -/
def cell (graph : Graph) (anchors : List Nat) :
    Nat → Option Nat → Position → Draft → Cell → Draft
  | 0, _, _, draft, _ => draft
  | _, indent, position, draft, .scalar value => draft.scalar indent position value
  | fuel + 1, indent, position, draft, .node index =>
      let (draft, isNew) := refer anchors draft index
      if !isNew then draft
      else
        match graph.resolve (.node index) with
        | .leaf value => draft.scalar indent position value
        | .array [] => draft.mapPen fun pen =>
            (pen.indicator "[" true false).indicator "]" false false
        | .object [] _ => draft.mapPen fun pen =>
            (pen.indicator "\x7b" true false).indicator "\x7d" false false
        | .array items =>
            let column :=
              if position.isInMapping && !draft.pen.indenting then indent.getD 0
              else innerIndent false indent
            items.foldl
              (fun draft item =>
                let draft := draft.mapPen fun pen => (pen.indent column).indicator "-" true true
                cell graph anchors fuel (some column) .item draft item)
              draft
        | .object entries keyNodes =>
            let column := innerIndent false indent
            entries.foldl
              (fun draft (name, value) =>
                let draft :=
                  draft.keyWithMark anchors column (Graph.keyNode? keyNodes name) name
                cell graph anchors fuel (some column) .value draft value)
              draft

end Draft

/-- The text of a graph whose integers can all be written. A scalar without quotes at the root is
followed by a mark, since the text might go on otherwise. -/
def textOf (graph : Graph) : String :=
  let draft :=
    Draft.cell graph (anchored graph) (graph.nodes.size + 1) none .root ⟨.start, []⟩ graph.root
  let pen := draft.pen.indent 0
  (if pen.openEnded then (pen.indicator "..." true false).indent 0 else pen).text

def write (graph : Graph) : Except Fault String :=
  if graph.tree.scalars.all Scalar.isWritable then .ok (textOf graph)
  else .error .integerTooLong

end Uplift.Yaml
