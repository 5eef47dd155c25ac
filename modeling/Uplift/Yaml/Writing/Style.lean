import Uplift.Text.Base64
import Uplift.Value.Shown
import Uplift.Yaml.Tag

/-!
# Styles of written scalars

How a scalar is written. A text goes without quotes if it then reads back as that text; otherwise it
stands in single quotes, or in double quotes if it holds what single quotes cannot show. All other
scalars but bytes are their plain forms.
-/

set_option autoImplicit false

namespace Uplift.Yaml

/-- How a scalar is written. -/
inductive Style where
  | plain
  | singleQuoted
  | doubleQuoted
  /-- Line by line, under a header. -/
  | literal
deriving DecidableEq

/-- A scalar as it is to be written. -/
structure WrittenScalar where
  tag : Tag
  /-- Whether the tag is written as well, because the text does not show it. -/
  showsTag : Bool
  style : Style
  chars : List Char

namespace Style

def isLineEnd (char : Char) : Bool :=
  char == '\n' || char == '\x85' || char == '\u2028' || char == '\u2029'

def isWhite (char : Char) : Bool :=
  char == '\x00' || char == ' ' || char == '\t' || char == '\r' || isLineEnd char

/-- Characters that are written as they are, quotes apart: those that print and the line feed, but
neither the byte order mark nor the last character of all. -/
def isOrdinary (char : Char) : Bool :=
  let code := char.toNat
  char == '\n' || (0x20 ≤ code && code ≤ 0x7e)
    || ((code == 0x85 || (0xa0 ≤ code && code ≤ 0xd7ff) || (0xe000 ≤ code && code ≤ 0xfffd)
        || (0x10000 ≤ code && code < 0x10ffff)) && code != 0xfeff)

/-- Whether somewhere a character of the one kind comes right before one of the other. -/
def adjacent (first second : Char → Bool) (chars : List Char) : Bool :=
  (chars.zip chars.tail).any fun (left, right) => first left && second right

def beginsLikeIndicator (chars : List Char) : Bool :=
  match chars with
  | [] => false
  | first :: rest =>
      ("#,[]\x7b\x7d&*!|>'\"%@".toList.contains first || first == '\x60')
        || (first == '?' || first == ':' || first == '-') && rest.head?.all isWhite
        || "---".toList.isPrefixOf chars || "...".toList.isPrefixOf chars

def holdsIndicator (chars : List Char) : Bool :=
  adjacent (· == ':') isWhite chars || chars.getLast? == some ':'
    || adjacent isWhite (· == '#') chars

def singleQuotable (chars : List Char) : Bool :=
  chars.all isOrdinary && !adjacent isLineEnd (· == ' ') chars
    && !adjacent (· == ' ') isLineEnd chars

/-- Whether a text without quotes is taken as one scalar, whatever its type. -/
def plainReadable (chars : List Char) : Bool :=
  singleQuotable chars && !chars.any isLineEnd
    && chars.head? != some ' ' && chars.getLast? != some ' '
    && !beginsLikeIndicator chars && !holdsIndicator chars

def ofText (text : String) : Style :=
  let chars := text.toList
  if Tag.ofPlain text = .text && plainReadable chars then .plain
  else if singleQuotable chars then .singleQuoted
  else .doubleQuoted

end Style

namespace WrittenScalar

def base64Width : Nat := 76

def inLines (width : Nat) : Nat → List Char → List Char
  | 0, _ => []
  | _, [] => []
  | fuel + 1, chars => chars.take width ++ '\n' :: inLines width fuel (chars.drop width)

def plain (tag : Tag) (text : String) : WrittenScalar := ⟨tag, false, .plain, text.toList⟩

def ofScalar : Scalar → WrittenScalar
  | .null => plain .null "null"
  | .bool value => plain .bool (if value then "true" else "false")
  | .int value => plain .int (toString value)
  | .float value => plain .float (value.text .yaml)
  | .date value => plain .timestamp value.text
  | .moment value => plain .timestamp value.text
  | .text value => ⟨.text, false, Style.ofText value, value.toList⟩
  | .bytes value =>
      let encoded := Base64.encode value
      ⟨.binary, true, if encoded.isEmpty then .doubleQuoted else .literal,
        inLines base64Width encoded.length encoded⟩

def tagName (scalar : WrittenScalar) : String :=
  match scalar.tag with
  | .unknown name => name
  | tag => String.ofList ('!' :: '!' :: tag.name.toList.drop Tag.standardNames.length)

/-- The most characters that a key on the line of its value may have, with its tag and anchor. -/
def longestSimpleKey : Nat := 127

def isSimpleKey (scalar : WrittenScalar) (anchor : Option String) : Bool :=
  let length := (anchor.map String.length).getD 0 + scalar.tagName.length + scalar.chars.length
  length ≤ longestSimpleKey && !scalar.chars.isEmpty && !scalar.chars.any Style.isLineEnd

end WrittenScalar

end Uplift.Yaml
