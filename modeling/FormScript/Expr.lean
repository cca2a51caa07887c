import FormScript.Number.Text

/-!
# Expressions

One type serves for programs and for the values they compute: nothing, truth
values, numbers, symbols and lists of expressions. An expression has a text, the
one it is written with, and a kind, the word that messages use for it.

Expressions are compared by `==` the way their numbers are: the two zeros are
equal, and what is not a number equals nothing, not even itself.
-/

namespace FormScript

/-- A program or a value. -/
inductive Expr where
  | nothing
  | truth (value : Bool)
  | number (value : Float)
  | symbol (name : String)
  | list (items : List Expr)
  deriving Repr

namespace Expr

/-- The kinds of expression. -/
inductive Kind where
  | nothing
  | truth
  | number
  | symbol
  | list
  deriving DecidableEq, Repr

/-- How a message calls expressions of this kind. -/
def Kind.name : Kind → String
  | .nothing => "none"
  | .truth => "boolean"
  | .number => "number"
  | .symbol => "symbol"
  | .list => "list"

/-- The kind of an expression. -/
def kind : Expr → Kind
  | .nothing => .nothing
  | .truth _ => .truth
  | .number _ => .number
  | .symbol _ => .symbol
  | .list _ => .list

/-- The truth value of an expression that is one. -/
def truth? : Expr → Option Bool
  | .truth value => some value
  | _ => none

/-- The number of an expression that is one. -/
def number? : Expr → Option Float
  | .number value => some value
  | _ => none

/-- The name of an expression that is a symbol. -/
def symbol? : Expr → Option String
  | .symbol name => some name
  | _ => none

/-! ## Equality -/

mutual

/-- Equality of expressions; numbers are compared as numbers. -/
def equal : Expr → Expr → Bool
  | .nothing, .nothing => true
  | .truth a, .truth b => a == b
  | .number a, .number b => a == b
  | .symbol a, .symbol b => a == b
  | .list as, .list bs => equalAll as bs
  | _, _ => false

/-- Equality of lists of expressions, item by item. -/
def equalAll : List Expr → List Expr → Bool
  | [], [] => true
  | a :: as, b :: bs => equal a b && equalAll as bs
  | _, _ => false

end

instance : BEq Expr := ⟨equal⟩

/-! ## Text -/

mutual

/-- The characters of the text of an expression. -/
def chars : Expr → List Char
  | .nothing => "None".toList
  | .truth true => "True".toList
  | .truth false => "False".toList
  | .number value => numberText value
  | .symbol name => name.toList
  | .list items => '(' :: itemChars items ++ [')']

/-- The texts of the items of a list, with one space between two of them. -/
def itemChars : List Expr → List Char
  | [] => []
  | [item] => chars item
  | item :: items => chars item ++ ' ' :: itemChars items

end

/-- The text of an expression. -/
def text (e : Expr) : String :=
  String.ofList e.chars

end Expr

end FormScript
