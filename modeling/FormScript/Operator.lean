import FormScript.Eval.Error

/-!
# Operators

The twelve operators and what they do to the values of their operands. Every
operand counts: `and` and `or` look at all of their operands, and each must be a
truth value.

When both the count and the kinds of the operands are wrong, the operators that
work on any number of operands, and `not`, complain about the count, and the
others about the first operand of a wrong kind.

Names and counts are stated twice. `Operator.name` and `Operator.arity` are what
evaluation goes by before it evaluates an operand; what applies an operator says for
itself how it is called in a complaint and how many values it works on.
-/

namespace FormScript

/-- The operators, in the order in which they are listed to users. -/
inductive Operator where
  | not
  | and
  | or
  | less
  | lessEqual
  | greater
  | greaterEqual
  | equal
  | add
  | sub
  | mul
  | div
  deriving DecidableEq, Repr

namespace Operator

/-- Every operator. -/
def all : List Operator :=
  [.not, .and, .or, .less, .lessEqual, .greater, .greaterEqual, .equal, .add, .sub, .mul, .div]

/-- How programs write an operator. -/
def name : Operator → String
  | .not => "not"
  | .and => "and"
  | .or => "or"
  | .less => "<"
  | .lessEqual => "<="
  | .greater => ">"
  | .greaterEqual => ">="
  | .equal => "="
  | .add => "+"
  | .sub => "-"
  | .mul => "*"
  | .div => "/"

/-- The operator that programs write in this way. -/
def ofName? (name : String) : Option Operator :=
  all.find? fun op => op.name == name

/-- The operand counts of an operator. -/
def arity : Operator → Arity
  | .not => .exactly 1
  | .and | .or => .atLeast 2
  | .less | .lessEqual | .greater | .greaterEqual | .equal => .exactly 2
  | .add => .atLeast 2
  | .sub => .between 1 2
  | .mul => .atLeast 2
  | .div => .exactly 2

/-! ## Operands -/

/-- Reads the operand of a form at this position, which must be of one kind. -/
def operand {α : Type} (form : String) (kind : Expr.Kind) (read? : Expr → Option α)
    (position : Nat) (arg : Expr) : Except EvalError α :=
  match read? arg with
  | some value => .ok value
  | none => .error (.badType form position (.ofKind kind) (.ofKind arg.kind))

/-- Reads the operands of a form, the first of which has the given position, up to the
first that is of another kind. -/
def operands {α : Type} (form : String) (kind : Expr.Kind) (read? : Expr → Option α) :
    (position : Nat) → List Expr → Except EvalError (List α)
  | _, [] => .ok []
  | position, arg :: args => do
    let value ← operand form kind read? position arg
    let values ← operands form kind read? (position + 1) args
    return value :: values

/-- Reads an operand that must be a truth value. -/
def truth (form : String) (position : Nat) (arg : Expr) : Except EvalError Bool :=
  operand form .truth Expr.truth? position arg

/-- Reads operands that must all be numbers. -/
def numbers (form : String) (args : List Expr) : Except EvalError (List Float) :=
  operands form .number Expr.number? 1 args

/-- The complaint about a count of operands that the operator does not take. -/
def badCount (op : Operator) (found : Nat) : EvalError :=
  .badCount op.name op.arity found

/-! ## Application -/

/-- Negates the only operand. -/
def negate (args : List Expr) : Except EvalError Expr :=
  match args with
  | [arg] => do
    let value ← truth "not" 1 arg
    return .truth (!value)
  | others => .error (.badCount "not" (.exactly 1) others.length)

/-- Combines two or more operands of one kind from left to right. Every operand is looked
at. -/
def fold {α : Type} (form : String) (kind : Expr.Kind) (read? : Expr → Option α)
    (give : α → Expr) (start : α) (combine : α → α → α) (args : List Expr) :
    Except EvalError Expr := do
  (Arity.atLeast 2).check form args.length
  let values ← operands form kind read? 1 args
  return give (values.foldl combine start)

/-- Combines truth values. -/
def foldTruths (form : String) (start : Bool) (combine : Bool → Bool → Bool)
    (args : List Expr) : Except EvalError Expr :=
  fold form .truth Expr.truth? .truth start combine args

/-- Combines numbers. -/
def foldNumbers (form : String) (start : Float) (combine : Float → Float → Float)
    (args : List Expr) : Except EvalError Expr :=
  fold form .number Expr.number? .number start combine args

/-- Checks that the operands are numbers, then that there are two of them. -/
def onPair (form : String) (combine : Float → Float → Expr) (args : List Expr) :
    Except EvalError Expr := do
  match ← numbers form args with
  | [x, y] => return combine x y
  | values => throw (.badCount form (.exactly 2) values.length)

/-- Compares two numbers. -/
def compare (form : String) (holds : Float → Float → Bool) (args : List Expr) :
    Except EvalError Expr :=
  onPair form (fun x y => .truth (holds x y)) args

/-- Changes the sign of one number, or subtracts the second of two. -/
def subtract (args : List Expr) : Except EvalError Expr := do
  match ← numbers "-" args with
  | [x] => return .number (-x)
  | [x, y] => return .number (x - y)
  | values => throw (.badCount "-" (.between 1 2) values.length)

/-- Divides two numbers. Dividing by zero is no fault. -/
def divide (args : List Expr) : Except EvalError Expr :=
  onPair "/" (fun x y => .number (x / y)) args

/-- Applies an operator to the values of its operands. -/
def apply (op : Operator) (args : List Expr) : Except EvalError Expr :=
  match op with
  | .not => negate args
  | .and => foldTruths "and" true (· && ·) args
  | .or => foldTruths "or" false (· || ·) args
  | .less => compare "<" (fun x y => x < y) args
  | .lessEqual => compare "<=" (fun x y => x ≤ y) args
  | .greater => compare ">" (fun x y => x > y) args
  | .greaterEqual => compare ">=" (fun x y => x ≥ y) args
  | .equal => compare "=" (fun x y => x == y) args
  | .add => foldNumbers "+" 0 (· + ·) args
  | .sub => subtract args
  | .mul => foldNumbers "*" 1 (· * ·) args
  | .div => divide args

end Operator

end FormScript
