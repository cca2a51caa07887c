/-!
# Lines of input

The prompt reads its input line by line. A line that is no UTF-8 text ends the
input; the lines before it are read as usual.
-/

namespace FormScript

/-- Cuts a list after every item with the given property. -/
def splitAfter {α : Type} (ends : α → Bool) : List α → List (List α)
  | [] => []
  | a :: as =>
    if ends a then [a] :: splitAfter ends as
    else
      match splitAfter ends as with
      | [] => [[a]]
      | piece :: pieces => (a :: piece) :: pieces

/-- The bytes of an input, cut after every line feed. -/
def pieces (bytes : ByteArray) : List (List UInt8) :=
  splitAfter (· == 10) bytes.data.toList

/-- The lines of an input, each with its line feed, up to the first line that is no
UTF-8 text, and whether there is such a line. -/
structure Input where
  lines : List (List Char)
  malformed : Bool
  deriving DecidableEq, Repr

namespace Input

/-- Decodes the pieces of an input one by one. -/
def ofPieces : List (List UInt8) → Input
  | [] => { lines := [], malformed := false }
  | piece :: pieces =>
    match String.fromUTF8? ⟨piece.toArray⟩ with
    | none => { lines := [], malformed := true }
    | some text =>
      let rest := ofPieces pieces
      { rest with lines := text.toList :: rest.lines }

/-- The lines of a sequence of bytes. -/
def ofBytes (bytes : ByteArray) : Input :=
  ofPieces (pieces bytes)

end Input

end FormScript
