/-!
# What a command leaves behind

A command writes lines to its output and to its error channel and ends with a
status.
-/

namespace FormScript

/-- A line on one of the two channels, without its line feed. -/
inductive Output where
  | out (line : String)
  | err (line : String)
  deriving DecidableEq, Repr

/-- The lines a command writes, in order, and its exit status. -/
structure Outcome where
  outputs : List Output
  status : Nat
  deriving DecidableEq, Repr

namespace Output

/-- The text on the output channel. -/
def outText : Output → String
  | .out line => line ++ "\n"
  | .err _ => ""

/-- The text on the error channel. -/
def errText : Output → String
  | .out _ => ""
  | .err line => line ++ "\n"

end Output

namespace Outcome

/-- An outcome with these lines written before its own. -/
def after (o : Outcome) (outputs : List Output) : Outcome :=
  { o with outputs := outputs ++ o.outputs }

/-- Everything on the output channel. -/
def outText (o : Outcome) : String :=
  String.join (o.outputs.map Output.outText)

/-- Everything on the error channel. -/
def errText (o : Outcome) : String :=
  String.join (o.outputs.map Output.errText)

end Outcome

end FormScript
