/-!
# Files

What a file gives to the library: its name and what is found under it. Text files hold UTF-8; each
of the usual ends of lines counts as a line feed.
-/

set_option autoImplicit false

namespace Uplift

/-- What is found under the name of a file. -/
inductive FileContent where
  | missing
  | directory
  | bytes (content : ByteArray)

/-- A file. -/
structure File where
  name : String
  content : FileContent

/-- Why there is no text in a file. -/
inductive FileError where
  | missing
  | directory
  | notText
deriving DecidableEq

namespace File

def isMissing (file : File) : Bool :=
  match file.content with
  | .missing => true
  | _ => false

/-- Whether there is a file, and not a directory or nothing. -/
def isRegular (file : File) : Bool :=
  match file.content with
  | .bytes _ => true
  | _ => false

/-- The last point of a name and what follows it. A point at the beginning or at the end of a name
sets off no suffix. -/
def suffix (file : File) : String :=
  let reversed := file.name.toList.reverse
  let last := reversed.takeWhile (· ≠ '.')
  let before := (reversed.dropWhile (· ≠ '.')).drop 1
  if last.isEmpty || before.isEmpty then "" else String.ofList ('.' :: last.reverse)

def unifyLines : List Char → List Char
  | '\r' :: '\n' :: rest => '\n' :: unifyLines rest
  | char :: rest => (if char = '\r' then '\n' else char) :: unifyLines rest
  | [] => []

def text (file : File) : Except FileError String :=
  match file.content with
  | .missing => .error .missing
  | .directory => .error .directory
  | .bytes content =>
      match String.fromUTF8? content with
      | none => .error .notText
      | some text => .ok (String.ofList (unifyLines text.toList))

end File

end Uplift
