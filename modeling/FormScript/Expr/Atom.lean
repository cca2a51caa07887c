import FormScript.Expr
import FormScript.Number.Numeral

/-!
# Expressions without parts

An atom is a truth value, the word `None`, a number literal or a symbol. A symbol
may be any text that is not one of the others, except that it is not empty, is no
paren and does not start with a digit.
-/

namespace FormScript.Expr

/-- Whether a text begins with a digit. -/
def startsWithDigit (text : String) : Bool :=
  text.toList.head?.any Char.isDigit

/-- The expression that an atom spells. -/
def ofAtom? (text : String) : Option Expr :=
  if text = "" ∨ text = "(" ∨ text = ")" then none
  else if text = "True" then some (.truth true)
  else if text = "False" then some (.truth false)
  else if text = "None" then some .nothing
  else if isNumberLiteral text then
    match FloatText.read? text.toList with
    | some spelled => some (.number spelled.value)
    | none => none
  else if startsWithDigit text then none
  else some (.symbol text)

end FormScript.Expr
