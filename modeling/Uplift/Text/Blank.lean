/-!
# Blank characters

The white space of Unicode, and what is left of a text when white space is cut from its two ends.
-/

set_option autoImplicit false

namespace Uplift.Text

/-- White space: the ASCII controls that separate lines or fields, and the Unicode spaces and
separators. The zero-width characters do not belong to it. -/
def isBlankChar (char : Char) : Bool :=
  let code := char.toNat
  (0x09 ≤ code && code ≤ 0x0d) || (0x1c ≤ code && code ≤ 0x20) || code == 0x85 || code == 0xa0
    || code == 0x1680 || (0x2000 ≤ code && code ≤ 0x200a) || code == 0x2028 || code == 0x2029
    || code == 0x202f || code == 0x205f || code == 0x3000

def trimChars (chars : List Char) : List Char :=
  ((chars.dropWhile isBlankChar).reverse.dropWhile isBlankChar).reverse

def trim (text : String) : String :=
  String.ofList (trimChars text.toList)

def isBlank (text : String) : Bool :=
  text.toList.all isBlankChar

end Uplift.Text
