import Uplift.Yaml.Token.Quoted

/-!
# Plain and block scalars

Scalars without quotes: plain ones, whose lines are folded like those of quoted scalars, and block
scalars, whose lines are kept or folded as their header says.
-/

set_option autoImplicit false

namespace Uplift.Yaml

namespace Plain

def isFlowMark (char : Char) : Bool :=
  ",[]\x7b\x7d".toList.contains char

/-- The characters of a plain scalar up to white space. A colon ends it if a separator follows,
and inside a flow collection the marks of such collections do. -/
def word (inFlow : Bool) : List Char → List Char
  | [] => []
  | char :: rest =>
      if char == ' ' || char == '\t' || isBreak char then []
      else if char == ':' && (separates rest.head? || inFlow && rest.head?.any isFlowMark) then []
      else if inFlow && (char == '?' || isFlowMark char) then []
      else char :: word inFlow rest

/-- Takes further line breaks; `none` if a mark that delimits documents follows one. -/
def breaks (fuel : Nat) (cursor : Cursor) : Option (List Char) × Cursor :=
  match fuel with
  | 0 => (some [], cursor)
  | fuel + 1 =>
      let after := cursor.skipWhile (· == ' ')
      match after.lineBreak? with
      | none => (some [], after)
      | some (lineBreak, after) =>
          if after.atDocumentMark then (none, after)
          else
            let (more, after) := breaks fuel after
            (more.map (lineBreak :: ·), after)

/-- What stands between two words: white space, with line breaks folded. It is empty if the scalar
ends here. The last part tells whether a line ended. -/
def gap (cursor : Cursor) : List Char × Cursor × Bool :=
  let (blanks, after) := cursor.span (· == ' ')
  match after.lineBreak? with
  | none => (blanks, after, false)
  | some (lineBreak, after) =>
      if after.atDocumentMark then ([], after, true)
      else
        match breaks (after.left + 1) after with
        | (none, after) => ([], after, true)
        | (some more, after) => (Quoted.folded lineBreak more, after, true)

/-- Takes words and what stands between them, as long as lines are indented far enough. The last
part tells whether a line ended after the last word. -/
def words (fuel : Nat) (inFlow : Bool) (indent : Int) (cursor : Cursor) :
    List Char × Cursor × Bool :=
  match fuel with
  | 0 => ([], cursor, false)
  | fuel + 1 =>
      if cursor.peek == some '#' then ([], cursor, false)
      else
        let first := word inFlow cursor.rest
        if first.isEmpty then ([], cursor, false)
        else
          let (between, after, ended) := gap (cursor.skip first.length)
          let stops :=
            between.isEmpty || after.peek == some '#' || (!inFlow && after.column < indent)
          if stops then (first, after, ended)
          else
            let (more, last, endedLater) := words fuel inFlow indent after
            if more.isEmpty then (first, last, ended)
            else (first ++ between ++ more, last, endedLater)

end Plain

namespace Block

/-- What becomes of the line breaks at the end of a block scalar. -/
inductive Chomping where
  | clip
  | strip
  | keep
deriving DecidableEq

def chomping (cursor : Cursor) : Chomping × Cursor :=
  match cursor.peek with
  | some '+' => (.keep, cursor.next)
  | some '-' => (.strip, cursor.next)
  | _ => (.clip, cursor)

/-- Takes a digit of indentation, which must not be zero. -/
def increment (cursor : Cursor) : Except Error (Option Nat × Cursor) :=
  match cursor.peek with
  | some char =>
      if !char.isDigit then .ok (none, cursor)
      else if char == '0' then cursor.fail
      else .ok (some (char.toNat - '0'.toNat), cursor.next)
  | none => .ok (none, cursor)

/-- Takes the header of a block scalar: chomping and indentation in either order. -/
def header (cursor : Cursor) : Except Error (Chomping × Option Nat × Cursor) := do
  let (chomp, after) := chomping cursor
  let (width, after) ← increment after
  let (chomp, after) := if chomp == .clip then chomping after else (chomp, after)
  if endsWord after.peek then return (chomp, width, after) else after.fail

/-- Takes empty lines in front of the first line, and tells how far spaces go in them. -/
def leadingBreaks (fuel : Nat) (cursor : Cursor) : List Char × Nat × Cursor :=
  match fuel with
  | 0 => ([], 0, cursor)
  | fuel + 1 =>
      let after := cursor.skipWhile (· == ' ')
      match after.lineBreak? with
      | none => ([], after.column, after)
      | some (lineBreak, next) =>
          let (more, width, last) := leadingBreaks fuel next
          (lineBreak :: more, max after.column width, last)

def skipIndent (indent : Nat) (cursor : Cursor) : Cursor :=
  let spaces := (cursor.rest.take (indent - cursor.column)).takeWhile (· == ' ')
  cursor.skip spaces.length

/-- Takes line breaks, with indentation in front of each further line. -/
def breaks (fuel : Nat) (indent : Nat) (cursor : Cursor) : List Char × Cursor :=
  match fuel with
  | 0 => ([], cursor)
  | fuel + 1 =>
      let after := skipIndent indent cursor
      match after.lineBreak? with
      | none => ([], after)
      | some (lineBreak, after) =>
          let (more, after) := breaks fuel indent after
          (lineBreak :: more, after)

/-- Takes the lines of a block scalar. `pending` are the breaks in front of the next line. The
result has the text, the last line break, the breaks after it, and the cursor. -/
def lines (fuel : Nat) (isFolded : Bool) (indent : Nat) (pending : List Char) (cursor : Cursor) :
    List Char × List Char × List Char × Cursor :=
  match fuel with
  | 0 => ([], [], pending, cursor)
  | fuel + 1 =>
      if cursor.column != indent || cursor.peek.isNone then ([], [], pending, cursor)
      else
        let startsText := cursor.peek.any fun char => !(char == ' ' || char == '\t')
        let (text, after) := cursor.span fun char => !isBreak char
        let (lineBreak, after) :=
          match after.lineBreak? with
          | none => ([], after)
          | some (lineBreak, after) => ([lineBreak], after)
        let (further, after) := breaks (after.left + 1) indent after
        if after.column != indent || after.peek.isNone then
          (pending ++ text, lineBreak, further, after)
        else
          let goesOn := after.peek.any fun char => !(char == ' ' || char == '\t')
          let joined :=
            if isFolded && lineBreak == ['\n'] && startsText && goesOn then
              if further.isEmpty then [' '] else []
            else lineBreak
          let (more, lastBreak, last, after) := lines fuel isFolded indent further after
          (pending ++ text ++ joined ++ more, lastBreak, last, after)

def scalar (outer : Int) (cursor : Cursor) : Except Error (String × Cursor) := do
  let isFolded := cursor.peek == some '>'
  let (chomp, width, after) ← header cursor.next
  let after ← Words.ignoredLine after
  let least := max (outer + 1).toNat 1
  let (indent, pending, after) :=
    match width with
    | some width =>
        let indent := least + width - 1
        let (pending, after) := breaks (after.left + 1) indent after
        (indent, pending, after)
    | none =>
        let (pending, widest, after) := leadingBreaks (after.left + 1) after
        (max least widest, pending, after)
  let (text, lastBreak, further, after) :=
    lines (after.left + 1) isFolded indent pending after
  let ending :=
    match chomp with
    | .strip => []
    | .clip => lastBreak
    | .keep => lastBreak ++ further
  return (String.ofList (text ++ ending), after)

end Block

end Uplift.Yaml
