import Uplift.Text.Printable

/-!
# Quoted text

How a text is shown inside a message: between single quotes, or between double quotes if it holds
single quotes only. The chosen quote, the backslash and every character that would not print are
escaped, so that the text can be read back.
-/

set_option autoImplicit false

namespace Uplift.Text

/-- The last `width` hexadecimal digits of a number, in lower case. -/
def hexDigits (width value : Nat) : List Char :=
  match width with
  | 0 => []
  | width + 1 => hexDigits width (value / 16) ++ [Nat.digitChar (value % 16)]

def quoteFor (chars : List Char) : Char :=
  if chars.contains '\'' && !chars.contains '"' then '"' else '\''

/-- One character of a quoted text. Characters that do not print are given by their code, in two,
four or eight hexadecimal digits. -/
def escapeChar (quote char : Char) : List Char :=
  if char = quote ∨ char = '\\' then ['\\', char]
  else if char = '\n' then ['\\', 'n']
  else if char = '\r' then ['\\', 'r']
  else if char = '\t' then ['\\', 't']
  else if char.toNat < 0x20 ∨ char.toNat = 0x7f then '\\' :: 'x' :: hexDigits 2 char.toNat
  else if char.toNat < 0x7f then [char]
  else if isPrintable char then [char]
  else if char.toNat < 0x100 then '\\' :: 'x' :: hexDigits 2 char.toNat
  else if char.toNat < 0x10000 then '\\' :: 'u' :: hexDigits 4 char.toNat
  else '\\' :: 'U' :: hexDigits 8 char.toNat

def quoted (text : String) : String :=
  let chars := text.toList
  let quote := quoteFor chars
  String.ofList (quote :: chars.flatMap (escapeChar quote) ++ [quote])

/-- One byte of a quoted byte string; only printing ASCII is shown as it is. -/
def escapeByte (quote : Char) (byte : UInt8) : List Char :=
  let char := Char.ofNat byte.toNat
  if char = quote ∨ char = '\\' then ['\\', char]
  else if char = '\n' then ['\\', 'n']
  else if char = '\r' then ['\\', 'r']
  else if char = '\t' then ['\\', 't']
  else if byte.toNat < 0x20 ∨ 0x7f ≤ byte.toNat then '\\' :: 'x' :: hexDigits 2 byte.toNat
  else [char]

/-- Bytes between quotes, marked by a leading letter. -/
def quotedBytes (bytes : List UInt8) : String :=
  let quote := quoteFor (bytes.map fun byte => Char.ofNat byte.toNat)
  String.ofList ('b' :: quote :: bytes.flatMap (escapeByte quote) ++ [quote])

end Uplift.Text
