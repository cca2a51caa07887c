import FormScript.Text.Span

/-!
# File names and what can be wrong with them

A file name is a sequence of parts divided by slashes. Empty parts do not count,
except that a slash at the beginning makes the name absolute and a slash at the end
asks for a folder.
-/

namespace FormScript

/-- Why a file cannot be opened under a name. -/
inductive PathFault where
  | missing
  | notFolder
  | isFolder
  | nameTooLong
  deriving DecidableEq, Repr

namespace PathFault

/-- The number of a fault. -/
def code : PathFault → Nat
  | .missing => 2
  | .notFolder => 20
  | .isFolder => 21
  | .nameTooLong => 36

/-- The fault in one word. -/
def kind : PathFault → String
  | .missing => "NotFound"
  | .notFolder => "NotADirectory"
  | .isFolder => "IsADirectory"
  | .nameTooLong => "InvalidFilename"

/-- The fault in words. -/
def text : PathFault → String
  | .missing => "No such file or directory"
  | .notFolder => "Not a directory"
  | .isFolder => "Is a directory"
  | .nameTooLong => "File name too long"

/-- The fault in words and with its number. -/
def message (fault : PathFault) : String :=
  fault.text ++ " (os error " ++ toString fault.code ++ ")"

/-- The fault with all its parts. -/
def details (fault : PathFault) : String :=
  "Os \x7b code: " ++ toString fault.code ++ ", kind: " ++ fault.kind ++ ", message: \"" ++
    fault.text ++ "\" \x7d"

end PathFault

/-- The parts of a file name. -/
structure Path where
  absolute : Bool
  parts : List String
  asFolder : Bool
  deriving DecidableEq, Repr

namespace Path

/-- Cuts a name at its slashes. -/
def cut : List Char → List (List Char)
  | [] => [[]]
  | c :: cs =>
    if c = '/' then [] :: cut cs
    else
      match cut cs with
      | [] => [[c]]
      | part :: parts => (c :: part) :: parts

/-- The parts of a name that count. -/
def partsOf (name : String) : List String :=
  ((cut name.toList).filter fun part => !part.isEmpty).map String.ofList

/-- Reads a file name. -/
def ofName (name : String) : Path where
  absolute := name.toList.head? == some '/'
  parts := partsOf name
  asFolder := name.toList.getLast? == some '/'

/-- Whether a part stands for a folder relative to where it is met. -/
def isDots (part : String) : Bool :=
  part == "." || part == ".."

/-- The longest part of a file name, in bytes. -/
def partLimit : Nat := 255

/-- The longest file name, in bytes. -/
def nameLimit : Nat := 4095

/-- Whether a text has more than `limit` bytes. -/
def exceeds (text : String) (limit : Nat) : Bool :=
  limit < byteLength text.toList

end Path

end FormScript
