import Uplift.Yaml.Token.Unquoted

/-!
# The tokens of a text

Cutting a YAML text into tokens. Indentation opens and closes block collections; a scalar, a flow
collection or an alias turns out to be a key when a colon follows on the same line, and the tokens
that mark it as a key are then put in front of it.
-/

set_option autoImplicit false

namespace Uplift.Yaml

/-- A token that may turn out to be a key: where it stands among the tokens and in the text. A
required one must turn out to be a key, since nothing else can stand there. -/
structure KeyCandidate where
  position : Nat
  required : Bool
  index : Nat
  line : Nat
  column : Nat

/-- The state of cutting a text into tokens. -/
structure Stream where
  cursor : Cursor
  /-- The tokens so far, the last one first, and their number. -/
  taken : List Token
  count : Nat
  indent : Int
  outerIndents : List Int
  keyAllowed : Bool
  /-- The candidate for a key at the current level, and those of the levels around it. -/
  candidate : Option KeyCandidate
  outerCandidates : List (Option KeyCandidate)

namespace Stream

def start (chars : List Char) : Stream :=
  ⟨.start chars, [], 0, -1, [], true, none, []⟩

def inFlow (stream : Stream) : Bool := !stream.outerCandidates.isEmpty

def push (stream : Stream) (token : Token) : Stream :=
  { stream with taken := token :: stream.taken, count := stream.count + 1 }

def insertAt (stream : Stream) (position : Nat) (tokens : List Token) : Stream :=
  let (later, earlier) := stream.taken.splitAt (stream.count - position)
  { stream with
    taken := later ++ tokens.reverse ++ earlier
    count := stream.count + tokens.length }

def moveTo (stream : Stream) (cursor : Cursor) : Stream := { stream with cursor := cursor }

def skip (stream : Stream) (count : Nat) : Stream := stream.moveTo (stream.cursor.skip count)

/-- Skips white space, comments and line breaks. Outside of flow collections a key may begin on a
new line. -/
def skipBlanks (fuel : Nat) (stream : Stream) : Stream :=
  match fuel with
  | 0 => stream
  | fuel + 1 =>
      let cursor := stream.cursor.skipWhile (· == ' ')
      let cursor := if cursor.peek == some '#' then cursor.skipLine else cursor
      match cursor.lineBreak? with
      | none => stream.moveTo cursor
      | some (_, after) =>
          skipBlanks fuel
            { stream with cursor := after, keyAllowed := stream.keyAllowed || !stream.inFlow }

def longestKey : Nat := 1024

def isCurrent (cursor : Cursor) (candidate : KeyCandidate) : Bool :=
  candidate.line == cursor.line && cursor.index - candidate.index ≤ longestKey

/-- A candidate that can still be a key here; one that cannot must not be required. -/
def current (cursor : Cursor) : Option KeyCandidate → Except Error (Option KeyCandidate)
  | none => .ok none
  | some candidate =>
      if isCurrent cursor candidate then .ok (some candidate)
      else if candidate.required then cursor.fail
      else .ok none

def dropStale (stream : Stream) : Except Error Stream := do
  let candidate ← current stream.cursor stream.candidate
  let outer ← stream.outerCandidates.mapM (current stream.cursor)
  return { stream with candidate := candidate, outerCandidates := outer }

/-- Gives up the candidate of this level, which must not be required. -/
def dropCandidate (stream : Stream) : Except Error Stream :=
  match stream.candidate with
  | none => .ok stream
  | some candidate =>
      if candidate.required then stream.cursor.fail else .ok { stream with candidate := none }

/-- Makes what begins here a candidate for a key, if a key may begin here. -/
def addCandidate (stream : Stream) : Except Error Stream := do
  if !stream.keyAllowed then return stream
  let required := !stream.inFlow && stream.indent == stream.cursor.column
  let stream ← stream.dropCandidate
  let cursor := stream.cursor
  return { stream with
    candidate :=
      some ⟨stream.count, required, cursor.index, cursor.line, cursor.column⟩ }

def closeBlocks (stream : Stream) (column : Int) : Stream :=
  if stream.inFlow then stream
  else
    let (indent, outer, closed) := unwind stream.indent stream.outerIndents 0
    { stream with
      indent := indent
      outerIndents := outer
      taken := List.replicate closed Token.blockEnd ++ stream.taken
      count := stream.count + closed }
where
  unwind (indent : Int) (outer : List Int) (closed : Nat) : Int × List Int × Nat :=
    match outer with
    | [] => (indent, [], closed)
    | next :: rest =>
        if column < indent then unwind next rest (closed + 1) else (indent, outer, closed)

/-- Opens a block collection at a column, if that is indented further than the one around it. -/
def opensBlock (stream : Stream) (column : Nat) : Bool := stream.indent < column

def openBlock (stream : Stream) (column : Nat) : Stream :=
  { stream with indent := column, outerIndents := stream.indent :: stream.outerIndents }

/-- Ends the open block collections in front of a directive, a document mark or the end. -/
def endBlocks (stream : Stream) : Except Error Stream := do
  let stream ← (stream.closeBlocks (-1)).dropCandidate
  return { stream with keyAllowed := false }

def openFlow (stream : Stream) (token : Token) : Except Error Stream := do
  let stream ← stream.addCandidate
  return { ((stream.skip 1).push token) with
    keyAllowed := true
    candidate := none
    outerCandidates := stream.candidate :: stream.outerCandidates }

def closeFlow (stream : Stream) (token : Token) : Except Error Stream := do
  let stream ← stream.dropCandidate
  match stream.outerCandidates with
  | [] => stream.cursor.fail
  | candidate :: outer =>
      return { ((stream.skip 1).push token) with
        keyAllowed := false
        candidate := candidate
        outerCandidates := outer }

def flowEntry (stream : Stream) : Except Error Stream := do
  let stream ← stream.dropCandidate
  return { ((stream.skip 1).push .flowEntry) with keyAllowed := true }

/-- Opens a block collection of the given kind where an indicator stands, if it begins one. Outside
of flow collections the indicator must stand where a key may begin. -/
def blockIndicator (stream : Stream) (opening : Token) : Except Error Stream :=
  if stream.inFlow then .ok stream
  else if !stream.keyAllowed then stream.cursor.fail
  else if stream.opensBlock stream.cursor.column then
    .ok ((stream.openBlock stream.cursor.column).push opening)
  else .ok stream

def blockEntry (stream : Stream) : Except Error Stream := do
  let stream ← stream.blockIndicator .blockSequenceStart
  let stream ← stream.dropCandidate
  return { ((stream.skip 1).push .blockEntry) with keyAllowed := true }

def keyMark (stream : Stream) : Except Error Stream := do
  let stream ← stream.blockIndicator .blockMappingStart
  let stream ← stream.dropCandidate
  return { ((stream.skip 1).push .key) with keyAllowed := !stream.inFlow }

/-- Takes the colon of a value. If there is a candidate, it was the key. -/
def valueMark (stream : Stream) : Except Error Stream :=
  match stream.candidate with
  | some candidate =>
      let opens := !stream.inFlow && stream.opensBlock candidate.column
      let marks := if opens then [Token.blockMappingStart, .key] else [Token.key]
      let marked := stream.insertAt candidate.position marks
      let opened := if opens then marked.openBlock candidate.column else marked
      .ok { ((opened.skip 1).push .value) with keyAllowed := false, candidate := none }
  | none => do
      let stream ← stream.blockIndicator .blockMappingStart
      return { ((stream.skip 1).push .value) with keyAllowed := !stream.inFlow }

/-- Takes a token that may be a key, by a reader for the rest of it. -/
def candidateToken {α : Type} (stream : Stream) (read : Cursor → Except Error (α × Cursor))
    (make : α → Token) : Except Error Stream := do
  let stream ← stream.addCandidate
  let (content, after) ← read stream.cursor
  return { ((stream.moveTo after).push (make content)) with keyAllowed := false }

def plainScalar (stream : Stream) : Except Error Stream := do
  let stream ← stream.addCandidate
  let (chars, after, ended) :=
    Plain.words (stream.cursor.left + 1) stream.inFlow (stream.indent + 1) stream.cursor
  return { ((stream.moveTo after).push (.scalar true (String.ofList chars))) with
    keyAllowed := ended }

def blockScalar (stream : Stream) : Except Error Stream := do
  let stream ← stream.dropCandidate
  let (text, after) ← Block.scalar stream.indent stream.cursor
  return { ((stream.moveTo after).push (.scalar false text)) with keyAllowed := true }

def directive (stream : Stream) : Except Error Stream := do
  let stream ← stream.endBlocks
  let (token, after) ← Words.directive stream.cursor
  return (stream.moveTo after).push token

def documentMark (stream : Stream) (token : Token) : Except Error Stream := do
  let stream ← stream.endBlocks
  return (stream.skip 3).push token

/-- Whether a plain scalar may begin with a character, given the one after it. -/
def beginsPlain (inFlow : Bool) (char : Char) (second : Option Char) : Bool :=
  if "-?:,[]\x7b\x7d#&*!|>'\"%@".toList.contains char || char == '\x60' then
    !separates second && (char == '-' || (!inFlow && (char == '?' || char == ':')))
  else !(char == ' ' || char == '\t' || isBreak char)

def token (stream : Stream) (char : Char) : Except Error Stream :=
  let cursor := stream.cursor
  let marks := stream.inFlow || separates (cursor.peekAt 1)
  if char == '%' && cursor.column == 0 then stream.directive
  else if cursor.column == 0 && cursor.atMark '-' then stream.documentMark .documentStart
  else if cursor.column == 0 && cursor.atMark '.' then stream.documentMark .documentEnd
  else if char == '[' then stream.openFlow .flowSequenceStart
  else if char == '\x7b' then stream.openFlow .flowMappingStart
  else if char == ']' then stream.closeFlow .flowSequenceEnd
  else if char == '\x7d' then stream.closeFlow .flowMappingEnd
  else if char == ',' then stream.flowEntry
  else if char == '-' && separates (cursor.peekAt 1) then stream.blockEntry
  else if char == '?' && marks then stream.keyMark
  else if char == ':' && marks then stream.valueMark
  else if char == '*' then stream.candidateToken Words.anchorName Token.alias
  else if char == '&' then stream.candidateToken Words.anchorName Token.anchor
  else if char == '!' then stream.candidateToken Words.tag Token.tag
  else if (char == '|' || char == '>') && !stream.inFlow then stream.blockScalar
  else if char == '\'' || char == '"' then
    stream.candidateToken Quoted.scalar (Token.scalar false)
  else if beginsPlain stream.inFlow char (cursor.peekAt 1) then stream.plainScalar
  else cursor.fail

/-- Takes what begins after white space: a token, or the end of the text. The result tells whether
the text goes on. -/
def advance (stream : Stream) : Except Error (Bool × Stream) := do
  let stream ← (stream.skipBlanks (stream.cursor.left + 1)).dropStale
  let stream := stream.closeBlocks stream.cursor.column
  match stream.cursor.peek with
  | none => return (false, ← stream.endBlocks)
  | some char => return (true, ← stream.token char)

/-- The tokens in front of which nothing can be put any more. A candidate that can still be a key
holds back itself and all that follows it. -/
def settled (stream : Stream) : List Token :=
  let waiting := (stream.candidate :: stream.outerCandidates).filterMap fun candidate =>
    candidate.filter (isCurrent stream.cursor)
  let count := (waiting.map KeyCandidate.position).foldl min stream.count
  stream.taken.reverse.take count

/-- Takes tokens up to the end of the text, or up to one that cannot be taken. Each takes a
character at least, which bounds `fuel`. -/
def run (fuel : Nat) (stream : Stream) : Tokens :=
  match fuel with
  | 0 => ⟨stream.settled, some (.badToken stream.cursor.line stream.cursor.column)⟩
  | fuel + 1 =>
      match stream.advance with
      | .error error => ⟨stream.settled, some error⟩
      | .ok (false, stream) => ⟨stream.taken.reverse, none⟩
      | .ok (true, stream) => run fuel stream

end Stream

def isTextChar (char : Char) : Bool :=
  let code := char.toNat
  code == 0x09 || code == 0x0a || code == 0x0d || (0x20 ≤ code && code ≤ 0x7e) || code == 0x85
    || (0xa0 ≤ code && code ≤ 0xd7ff) || (0xe000 ≤ code && code ≤ 0xfffd) || 0x10000 ≤ code

def tokens (text : String) : Tokens :=
  let chars := text.toList
  match chars.find? fun char => !isTextChar char with
  | some char => ⟨[], some (.unprintable char)⟩
  | none =>
      let stream := Stream.start chars
      let stream := if stream.cursor.peek == some '\ufeff' then stream.skip 1 else stream
      stream.run (chars.length + 2)

end Uplift.Yaml
