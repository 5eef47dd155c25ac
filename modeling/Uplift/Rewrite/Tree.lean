import Uplift.Rewrite.Treatment
import Uplift.Value.Path

/-!
# Treatments of trees

Treatments carried out on a document that is held as a tree. Every walk is by recursion on the tree.
A rule decides on what an object held before anything below it was changed; what lies below is
rewritten all the same, wherever the rule puts it.
-/

set_option autoImplicit false

namespace Uplift.Rewrite

def outlines (entries : Entries Value) : Entries Outline :=
  entries.mapValues Value.outline

def noteAll (notes : List Note) : Logged Fault Unit := ⟨notes, .ok ()⟩

/-- Asks a rule about an object, and makes its notes. -/
def ask (rule : Entries Outline → Except Fault Amendment) (entries : Entries Value) :
    Logged Fault Amendment := do
  let amendment ← Logged.ofExcept (rule (outlines entries))
  noteAll amendment.notes
  pure amendment

mutual

def everyObject (rule : Entries Outline → Except Fault Amendment) :
    Value → Logged Fault Value
  | .scalar value => pure (.scalar value)
  | .array items => do
      let treated ← everyObjectItems rule items
      pure (.array treated)
  | .object entries => do
      let amendment ← ask rule entries
      let treated ← everyObjectEntries rule entries
      pure (.object (amendment.apply treated))

def everyObjectItems (rule : Entries Outline → Except Fault Amendment) :
    List Value → Logged Fault (List Value)
  | [] => pure []
  | item :: rest => do
      let treated ← everyObject rule item
      let others ← everyObjectItems rule rest
      pure (treated :: others)

def everyObjectEntries (rule : Entries Outline → Except Fault Amendment) :
    List (Scalar × Value) → Logged Fault (List (Scalar × Value))
  | [] => pure []
  | (key, value) :: rest => do
      let treated ← everyObject rule value
      let others ← everyObjectEntries rule rest
      pure ((key, treated) :: others)

end

/-- Applies a rule to a node alone, if it is an object. -/
def thisObject (rule : Entries Outline → Except Fault Amendment) :
    Value → Logged Fault Value
  | .object entries => do
      let amendment ← ask rule entries
      pure (.object (amendment.apply entries))
  | other => pure other

/-- Visits values one after the other. -/
def walkItems (visit : Value → Logged Fault Value) : List Value → Logged Fault (List Value)
  | [] => pure []
  | item :: rest => do
      let walked ← visit item
      let others ← walkItems visit rest
      pure (walked :: others)

/-- Visits the values of entries one after the other. -/
def walkValues (visit : Scalar → Value → Logged Fault Value) :
    List (Scalar × Value) → Logged Fault (List (Scalar × Value))
  | [] => pure []
  | (key, value) :: rest => do
      let walked ← visit key value
      let others ← walkValues visit rest
      pure ((key, walked) :: others)

def changeChildren (change : Value → Logged Fault Value) : Value → Logged Fault Value
  | .scalar value => pure (.scalar value)
  | .array items => do
      let changed ← walkItems change items
      pure (.array changed)
  | .object entries => do
      let changed ← walkValues (fun _ => change) entries
      pure (.object changed)

/-- Renames a field of a node, or of every object of a tree, with a warning for each object that has
both names. -/
def renameField (old new : String) (recursive : Bool) (node : Value) : Logged Fault Value :=
  let rule := (Rule.renameField old new).fallible ""
  if recursive then everyObject rule node else thisObject rule node

/-- Gives a value to a field wherever it is there and blank. -/
def fillBlank (field : String) (value : Value) (node : Value) : Except Fault Value :=
  (everyObject (FallibleRule.fillBlank field value "") node).outcome

/-- The amendment of an element's properties by the rule of its type, if they are an object and
there is such a rule. -/
def propertiesAmendment (ruleOf : String → Option FallibleRule) (elementType stepId : String)
    (element : Entries Value) : Except Fault Amendment :=
  match ruleOf elementType, element.lookup (.text Treatment.propertiesField) with
  | some rule, some (.object properties) => rule stepId (outlines properties)
  | _, _ => .ok .none

def amendProperties (amendment : Amendment) (element : Entries Value) : Entries Value :=
  match element.lookup (.text Treatment.propertiesField) with
  | some (.object properties) =>
      element.put (.text Treatment.propertiesField) (.object (amendment.apply properties))
  | _ => element

mutual

def element (ruleOf : String → Option FallibleRule) (stepId : String) :
    Value → Logged Fault Value
  | .object entries => do
      let visit ← Logged.ofExcept (Treatment.Visit.read (outlines entries))
      Logged.note (visit.note stepId)
      let amendment ←
        Logged.ofExcept (propertiesAmendment ruleOf visit.elementType stepId entries)
      noteAll amendment.notes
      let walked ← elementEntries ruleOf stepId entries
      pure (.object (amendProperties amendment walked))
  | other => pure other

/-- Visits what lies below an element, entry by entry. -/
def elementEntries (ruleOf : String → Option FallibleRule) (stepId : String) :
    List (Scalar × Value) → Logged Fault (List (Scalar × Value))
  | [] => pure []
  | (key, value) :: rest => do
      let walked ←
        if key.sameKey (.text Treatment.childrenField) then elements ruleOf stepId value
        else pure value
      let others ← elementEntries ruleOf stepId rest
      pure ((key, walked) :: others)

def elements (ruleOf : String → Option FallibleRule) (stepId : String) :
    Value → Logged Fault Value
  | .scalar value => pure (.scalar value)
  | .array items => do
      let walked ← elementItems ruleOf stepId items
      pure (.array walked)
  | .object entries => do
      let walked ← elementValues ruleOf stepId entries
      pure (.object walked)

def elementItems (ruleOf : String → Option FallibleRule) (stepId : String) :
    List Value → Logged Fault (List Value)
  | [] => pure []
  | item :: rest => do
      let walked ← element ruleOf stepId item
      let others ← elementItems ruleOf stepId rest
      pure (walked :: others)

def elementValues (ruleOf : String → Option FallibleRule) (stepId : String) :
    List (Scalar × Value) → Logged Fault (List (Scalar × Value))
  | [] => pure []
  | (key, value) :: rest => do
      let walked ← element ruleOf stepId value
      let others ← elementValues ruleOf stepId rest
      pure ((key, walked) :: others)

end

/-- Moves all fields but the identifier and the name into the content. -/
def promote (fields : FieldNames) (document : Value) : Except Fault Value := do
  let entries ← Value.requireObject "$" document
  return .object (Promotion.root fields (.object (Promotion.moved fields entries)) entries)

/-- Changes the elements of the content, if there are any. -/
def overElements (fields : FieldNames) (change : Value → Logged Fault Value) :
    Value → Logged Fault Value
  | .object root =>
      match Entries.lookup (.text fields.content) root with
      | some (.object content) =>
          match Entries.lookup (.text Treatment.elementsField) content with
          | some found => do
              let changed ← change found
              pure (.object (Entries.put (.text fields.content)
                (.object (Entries.put (.text Treatment.elementsField) changed content)) root))
          | none => pure (.object root)
      | _ => pure (.object root)
  | other => pure other

/-- Changes the operations of the content. Content that is absent or null has none, and neither has
content without an entry for them; any other content must be an object, and they an array. -/
def overOperations (fields : FieldNames) (change : List Value → Logged Fault (List Value)) :
    Value → Logged Fault Value
  | .object root =>
      match Entries.lookup (.text fields.content) root with
      | none | some .null => pure (.object root)
      | some (.object content) =>
          match Entries.lookup (.text Treatment.operationsField) content with
          | none | some .null => pure (.object root)
          | some (.array items) => do
              let changed ← change items
              pure (.object (Entries.put (.text fields.content)
                (.object (Entries.put (.text Treatment.operationsField) (.array changed) content))
                root))
          | some other =>
              Logged.fail (.expectedArray (Treatment.operationsPlace fields) other.kind)
      | some other => Logged.fail (.expectedObject fields.content other.kind)
  | other => Logged.fail (.noEntries other.qualifiedTypeName)

def onTree (fields : FieldNames) (stepId : String) :
    Treatment → Value → Logged Fault Value
  | .promote, document => Logged.ofExcept (promote fields document)
  | .everyObject rule, document => everyObject (rule stepId) document
  | .eachElement rule, document =>
      overElements fields (changeChildren (thisObject (rule stepId))) document
  | .elementProperties ruleOf, document =>
      overElements fields (elements ruleOf stepId) document
  | .eachOperation rule, document =>
      overOperations fields (walkItems (thisObject (rule stepId))) document

end Uplift.Rewrite
