import FormScript.Number.Literal

/-!
# Number literals

Not every text of a floating-point number is a number in a program. A number literal is
an optional sign, digits with at most one point among them, and optionally the letter
`e` with an exponent of digits only. It has a digit before the exponent, and a literal
without a sign starts with a digit.

The characters after the sign are judged one by one, by what has been seen before them.
-/

namespace FormScript

/-- What has been seen of a literal after its sign. -/
structure Seen where
  mantissaDigit : Bool := false
  exponentDigit : Bool := false
  point : Bool := false
  mark : Bool := false
  deriving DecidableEq, Repr

namespace Seen

/-- What has been seen after one more character, unless no literal goes on like this. -/
def step? (seen : Seen) (c : Char) : Option Seen :=
  if c.isDigit then
    if seen.mark then some { seen with exponentDigit := true }
    else some { seen with mantissaDigit := true }
  else if c = '.' ∧ seen.point = false ∧ seen.mark = false then some { seen with point := true }
  else if c = 'e' ∧ seen.mark = false then some { seen with mark := true }
  else none

/-- What has been seen after these characters. -/
def steps? (seen : Seen) : List Char → Option Seen
  | [] => some seen
  | c :: cs =>
    match seen.step? c with
    | some next => next.steps? cs
    | none => none

/-- Whether a literal can end here. -/
def isWhole (seen : Seen) : Bool :=
  seen.mantissaDigit && (!seen.mark || seen.exponentDigit)

/-- Whether these characters complete a literal. -/
def accepts (seen : Seen) (cs : List Char) : Bool :=
  match seen.steps? cs with
  | some last => last.isWhole
  | none => false

end Seen

/-- Whether a text is a number literal. -/
def isNumberLiteral (text : String) : Bool :=
  match text.toList with
  | '.' :: _ | 'e' :: _ => false
  | chars => Seen.accepts {} (dropSign chars)

end FormScript
