import FormScript.Arity
import FormScript.Expr

/-!
# Why an expression has no value
-/

namespace FormScript

/-- What a form asks of an argument. -/
inductive Wanted where
  | ofKind (kind : Expr.Kind)
  | unreservedSymbol
  deriving DecidableEq, Repr

/-- What a form was given as an argument. -/
inductive Given where
  | ofKind (kind : Expr.Kind)
  | reservedSymbol (name : String)
  deriving DecidableEq, Repr

/-- The words for what is wanted. -/
def Wanted.text : Wanted → String
  | .ofKind kind => kind.name
  | .unreservedSymbol => "an unreserved symbol"

/-- The words for what is given. -/
def Given.text : Given → String
  | .ofKind kind => kind.name
  | .reservedSymbol name => "reserved symbol '" ++ name ++ "'"

/-- The reasons why an evaluation fails. Argument positions count from one. -/
inductive EvalError where
  | unbound (name : String)
  | emptyList
  | unknownProcedure (name : String)
  | headNotSymbol (head : Expr)
  | badCount (form : String) (expected : Arity) (found : Nat)
  | badType (form : String) (position : Nat) (expected : Wanted) (found : Given)

namespace EvalError

/-- The message of a failure. -/
def message : EvalError → String
  | .unbound name => "unbound symbol '" ++ name ++ "'"
  | .emptyList => "invalid expression: cannot evaluate an empty list"
  | .unknownProcedure name => "invalid expression: unknown procedure '" ++ name ++ "'"
  | .headNotSymbol head =>
    "invalid expression: expected a procedure name but found " ++ head.kind.name ++ " '" ++
      head.text ++ "'"
  | .badCount form expected found =>
    "'" ++ form ++ "' expects " ++ expected.text ++ " arguments, got " ++ toString found
  | .badType form position expected found =>
    "'" ++ form ++ "' expects " ++ expected.text ++ " for argument " ++ toString position ++
      ", got " ++ found.text

end EvalError

/-- Accepts a count of operands for a form, or says what was expected. -/
def Arity.check (arity : Arity) (form : String) (found : Nat) : Except EvalError Unit :=
  if arity.admits found then .ok () else .error (.badCount form arity found)

theorem Arity.check_of_admits {arity : Arity} {form : String} {found : Nat}
    (admitted : arity.admits found = true) : arity.check form found = .ok () := by
  rw [check, if_pos admitted]

theorem Arity.check_of_refused {arity : Arity} {form : String} {found : Nat}
    (refused : arity.admits found = false) :
    arity.check form found = .error (.badCount form arity found) := by
  rw [check, if_neg (ne_true_of_eq_false refused)]

end FormScript
