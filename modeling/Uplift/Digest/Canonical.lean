import Uplift.Value.Shown

/-!
# Canonical text

The text by which a document is identified. It is compact, the entries of every object are sorted by
the text of their keys, and keys that have the same text are one entry, with the value given last.
Two documents that differ only in the order of entries have the same canonical text.
-/

set_option autoImplicit false

namespace Uplift.Canonical

/-- One character of a quoted text: quote and backslash are escaped, and so are the control
characters below the space. -/
def escapeChar (char : Char) : List Char :=
  if char = '"' then ['\\', '"']
  else if char = '\\' then ['\\', '\\']
  else if char = '\n' then ['\\', 'n']
  else if char = '\r' then ['\\', 'r']
  else if char = '\t' then ['\\', 't']
  else if char = '\x08' then ['\\', 'b']
  else if char = '\x0c' then ['\\', 'f']
  else if char.toNat < 0x20 then '\\' :: 'u' :: Text.hexDigits 4 char.toNat
  else [char]

def quote (text : String) : String :=
  String.ofList ('"' :: text.toList.flatMap escapeChar ++ ['"'])

/-- The canonical text of a scalar. Those without a form of their own are given as texts. -/
def scalarText : Scalar → String
  | .null => "null"
  | .bool value => if value then "true" else "false"
  | .int value => toString value
  | .float value => value.text .canonical
  | other => quote other.shown

/-- Puts an entry in front of the entries whose keys come later. An entry that is met again under
the same key was given later, and stays. -/
def insertEntry {α : Type} (key : String) (value : α) : List (String × α) → List (String × α)
  | [] => [(key, value)]
  | (other, kept) :: rest =>
      if key < other then (key, value) :: (other, kept) :: rest
      else if key = other then (other, kept) :: rest
      else (other, kept) :: insertEntry key value rest

mutual

def text : Value → String
  | .scalar value => scalarText value
  | .array items => "[" ++ ",".intercalate (itemTexts items) ++ "]"
  | .object entries =>
      let written := (sortedEntries entries).map fun entry => quote entry.1 ++ ":" ++ entry.2
      "\x7b" ++ ",".intercalate written ++ "\x7d"

def itemTexts : List Value → List String
  | [] => []
  | item :: rest => text item :: itemTexts rest

/-- The texts of the keys with the canonical texts of their values, sorted by key. -/
def sortedEntries : List (Scalar × Value) → List (String × String)
  | [] => []
  | (key, value) :: rest => insertEntry key.shown (text value) (sortedEntries rest)

end

end Uplift.Canonical
