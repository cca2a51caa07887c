import FormScript.Operator

/-!
# Reserved names

The names with a meaning of their own: the three special forms and the operators.
A reserved name is never a variable; as an expression it stands for itself.
-/

namespace FormScript

/-- A reserved name. -/
inductive Keyword where
  | define
  | begin
  | choose
  | operator (op : Operator)
  deriving DecidableEq, Repr

namespace Keyword

/-- Every reserved name, in the order in which they are listed to users. -/
def all : List Keyword :=
  [.define, .begin, .choose] ++ Operator.all.map .operator

/-- How programs write a reserved name. -/
def name : Keyword → String
  | .define => "define"
  | .begin => "begin"
  | .choose => "if"
  | .operator op => op.name

/-- The reserved name that programs write in this way. -/
def ofName? (name : String) : Option Keyword :=
  all.find? fun keyword => keyword.name == name

end Keyword

/-- Whether a name is reserved. -/
def isReserved (name : String) : Bool :=
  (Keyword.ofName? name).isSome

/-- Whether `define` refuses a name: the reserved names and the constant `pi`. -/
def isProtected (name : String) : Bool :=
  isReserved name || name == "pi"

end FormScript
