import FormScript.Expr
import FormScript.Program.Error

/-!
# The log of a session

What a session does is logged as events: the forms that are entered, the names that
are bound, the programs that are rejected and the times when all bindings are
dropped.
-/

namespace FormScript

/-- One entry of the log. -/
inductive Event where
  | form (head : String) (operands : Nat)
  | define (name : String) (value : Expr)
  | rejected (reason : ParseError)
  | reset

/-- An event as a log line. -/
def Event.text : Event → String
  | .form head operands =>
    "TRACE evaluating form form=" ++ head ++ " operands=" ++ toString operands
  | .define name value => "DEBUG define symbol=" ++ name ++ " value=" ++ value.text
  | .rejected reason => "DEBUG parse failed error=" ++ reason.message
  | .reset => "DEBUG resetting environment"

end FormScript
