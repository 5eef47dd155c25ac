import Uplift.Yaml.Part
import Uplift.Yaml.Token

/-!
# From tokens to parts

The grammar of YAML on tokens. Every function takes tokens from the front of the list in its state.
If an error is in the way of further tokens, it counts only once a further one is looked at: what is
wrong with the tokens before it is found first. A function that calls itself has as first argument a
bound on how deep its calls may go; since a call takes a token at the latest when it calls one
further, four times the number of tokens is enough.
-/

set_option autoImplicit false

namespace Uplift.Yaml

/-- What is left of the tokens, and the names that the document gave up to there. -/
structure ParseState where
  rest : List Token
  failure : Option Error
  handles : List (String × String)
  anchors : List String

abbrev Parse := StateT ParseState (Except Error)

namespace Parse

/-- The next token, which stays. -/
def next? : Parse (Option Token) := do
  let state ← get
  match state.rest, state.failure with
  | [], some error => throw error
  | rest, _ => return rest.head?

def nextIn (tokens : List Token) : Parse Bool := do
  let next ← next?
  return next.any tokens.contains

def skip : Parse Unit := modify fun state => { state with rest := state.rest.tail }

def fail {α : Type} : Parse α := throw .badStructure

def expect (token : Token) : Parse Unit := do
  let next ← next?
  if next = some token then skip else fail

/-- Takes an anchor, if one comes next. -/
def anchor? : Parse (Option String) := do
  match ← next? with
  | some (.anchor name) => do
      skip
      return some name
  | _ => return none

/-- Takes a tag, if one comes next. -/
def tag? : Parse (Option WrittenTag) := do
  match ← next? with
  | some (.tag written) => do
      skip
      return some written
  | _ => return none

/-- The name of a type, from a tag as it is written. -/
def tagName (written : WrittenTag) : Parse String := do
  match written.handle with
  | none => return written.suffix
  | some handle =>
      let state ← get
      match state.handles.find? fun entry => entry.1 = handle with
      | none => throw (.unknownTag (handle ++ written.suffix))
      | some (_, expansion) => return expansion ++ written.suffix

/-- Takes an anchor and a tag, in either order and as far as they are there. -/
def properties : Parse Properties := do
  let first ← anchor?
  let written ← tag?
  let anchor ← if first.isNone && written.isSome then anchor? else pure first
  match written with
  | none => return ⟨anchor, none⟩
  | some written => return ⟨anchor, some (← tagName written)⟩

/-- Gives a part an anchor, which must be new. -/
def declare : Option String → Parse Unit
  | none => return
  | some name => do
      let state ← get
      if state.anchors.contains name then throw (.duplicateAnchor name)
      else set { state with anchors := name :: state.anchors }

def checkAlias (name : String) : Parse Unit := do
  let state ← get
  if !state.anchors.contains name then throw (.unknownAlias name)

end Parse

namespace Part

open Parse

/-- Where a part stands, which decides on the collections that may begin there. -/
inductive Place where
  /-- Inside a flow collection, where no block collection may begin. -/
  | flow
  | block
  /-- In an entry of a block mapping, where a sequence needs no indentation of its own. -/
  | entry
deriving DecidableEq

mutual

def take : Nat → Place → Parse Part
  | 0, _ => fail
  | fuel + 1, place => do
      match ← next? with
      | some (.alias name) => do
          skip
          checkAlias name
          return .alias name
      | _ => do
          let properties ← properties
          takeContent fuel place properties

def takeContent : Nat → Place → Properties → Parse Part
  | 0, _, _ => fail
  | fuel + 1, place, properties => do
      let next ← next?
      declare properties.anchor
      match next, place with
      | some (.scalar plain text), _ => do
          skip
          return .scalar properties plain text
      | some .flowSequenceStart, _ => do
          skip
          return .sequence properties (← takeFlowItems fuel)
      | some .flowMappingStart, _ => do
          skip
          return .mapping properties (← takeFlowEntries fuel)
      | some .blockEntry, .entry =>
          return .sequence properties
            (← takeBlockItems fuel [.blockEntry, .key, .value, .blockEnd])
      | some .blockSequenceStart, .block | some .blockSequenceStart, .entry => do
          skip
          let items ← takeBlockItems fuel [.blockEntry, .blockEnd]
          expect .blockEnd
          return .sequence properties items
      | some .blockMappingStart, .block | some .blockMappingStart, .entry => do
          skip
          let entries ← takeBlockEntries fuel
          expect .blockEnd
          return .mapping properties entries
      | _, _ => if properties = .none then fail else return .scalar properties true ""

/-- Takes a part, unless one of the given tokens comes next: then it is empty. -/
def takeUnless : Nat → Place → List Token → Parse Part
  | 0, _, _ => fail
  | fuel + 1, place, stops => do
      if ← nextIn stops then return .empty else take fuel place

/-- Takes a value with the mark in front of it; without the mark, it is empty. -/
def takeValue : Nat → Place → List Token → Parse Part
  | 0, _, _ => fail
  | fuel + 1, place, stops => do
      if ← nextIn [.value] then do
        skip
        takeUnless fuel place stops
      else return .empty

/-- Takes the items of a block sequence. An item is empty in front of the given tokens. -/
def takeBlockItems : Nat → List Token → Parse (List Part)
  | 0, _ => fail
  | fuel + 1, stops => do
      if ← nextIn [.blockEntry] then do
        skip
        let item ← takeUnless fuel .block stops
        return item :: (← takeBlockItems fuel stops)
      else return []

def takeBlockEntries : Nat → Parse (List (Part × Part))
  | 0 => fail
  | fuel + 1 => do
      if ← nextIn [.key] then do
        skip
        let key ← takeUnless fuel .entry [.key, .value, .blockEnd]
        let value ← takeValue fuel .entry [.key, .value, .blockEnd]
        return (key, value) :: (← takeBlockEntries fuel)
      else return []

/-- Takes the items of a flow sequence with its end. A key among them begins a mapping of a single
entry. -/
def takeFlowItems : Nat → Parse (List Part)
  | 0 => fail
  | fuel + 1 => do
      if ← nextIn [.flowSequenceEnd] then do
        skip
        return []
      else do
        let item ←
          if ← nextIn [.key] then do
            skip
            let key ← takeUnless fuel .flow [.value, .flowEntry, .flowSequenceEnd]
            let value ← takeValue fuel .flow [.flowEntry, .flowSequenceEnd]
            pure (Part.mapping .none [(key, value)])
          else take fuel .flow
        if ← nextIn [.flowEntry] then do
          skip
          return item :: (← takeFlowItems fuel)
        else do
          expect .flowSequenceEnd
          return [item]

/-- Takes the entries of a flow mapping with its end. A part without a mark of its own is a key
whose value is empty. -/
def takeFlowEntries : Nat → Parse (List (Part × Part))
  | 0 => fail
  | fuel + 1 => do
      if ← nextIn [.flowMappingEnd] then do
        skip
        return []
      else do
        let entry ←
          if ← nextIn [.key] then do
            skip
            let key ← takeUnless fuel .flow [.value, .flowEntry, .flowMappingEnd]
            let value ← takeValue fuel .flow [.flowEntry, .flowMappingEnd]
            pure (key, value)
          else do
            let key ← take fuel .flow
            pure (key, Part.empty)
        if ← nextIn [.flowEntry] then do
          skip
          return entry :: (← takeFlowEntries fuel)
        else do
          expect .flowMappingEnd
          return [entry]

end

/-- Takes directives. There may be one of a version, which must be a version 1, and one for each
handle. The result has the handles that are given. -/
def takeDirectives : Nat → Bool → List (String × String) → Parse (List (String × String))
  | 0, _, handles => return handles
  | fuel + 1, hasVersion, handles => do
      match ← next? with
      | some (.versionDirective major) => do
          skip
          if hasVersion ∨ major ≠ 1 then fail else takeDirectives fuel true handles
      | some (.tagDirective handle expansion) => do
          skip
          if handles.any fun entry => entry.1 = handle then fail
          else takeDirectives fuel hasVersion (handles ++ [(handle, expansion)])
      | some .otherDirective => do
          skip
          takeDirectives fuel hasVersion handles
      | _ => return handles

/-- Whether a directive or a mark that delimits documents comes next, or nothing at all. -/
def atLimit : Parse Bool := do
  match ← next? with
  | none | some .documentStart | some .documentEnd => return true
  | some (.versionDirective _) | some (.tagDirective _ _) | some .otherDirective => return true
  | _ => return false

/-- The handles that every document has, unless its directives say otherwise. -/
def standardHandles : List (String × String) :=
  [("!", "!"), ("!!", "tag:yaml.org,2002:")]

def takeStart (fuel : Nat) : Parse Unit := do
  let handles ← takeDirectives fuel false []
  expect .documentStart
  modify fun state => { state with handles := handles ++ standardHandles }

/-- Takes the content of the first document, if there is a document. -/
def takeDocument? (fuel : Nat) : Parse (Option Part) := do
  let next ← next?
  if next.isNone then return none
  else if next = some .documentEnd || !(← atLimit) then return some (← take fuel .block)
  else do
    takeStart fuel
    if ← atLimit then return some .empty else return some (← take fuel .block)

/-- Takes what follows the first document: there must not be a second one. -/
def takeRest (fuel : Nat) : Parse Unit := do
  modify fun state => { state with rest := state.rest.dropWhile (· = Token.documentEnd) }
  if (← next?).isSome then do
    takeStart fuel
    throw .secondDocument

/-- The content of the document that tokens form. No tokens form none, and there must not be a
second one. -/
def ofTokens (tokens : Tokens) : Except Error (Option Part) := do
  let fuel := 4 * tokens.taken.length + 8
  let action : Parse (Option Part) := do
    let part ← takeDocument? fuel
    takeRest fuel
    return part
  let (part, _) ← action.run ⟨tokens.taken, tokens.failure, standardHandles, []⟩
  return part

end Part

end Uplift.Yaml
