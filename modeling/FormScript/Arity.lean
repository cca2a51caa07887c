/-!
# How many operands a form takes
-/

namespace FormScript

/-- A range of operand counts. -/
inductive Arity where
  | exactly (count : Nat)
  | atLeast (least : Nat)
  | between (least most : Nat)
  deriving DecidableEq, Repr

namespace Arity

/-- Whether a count is in the range. -/
def admits : Arity → Nat → Bool
  | .exactly count, found => found == count
  | .atLeast least, found => least ≤ found
  | .between least most, found => least ≤ found && found ≤ most

/-- The range in words. -/
def text : Arity → String
  | .exactly count => "exactly " ++ toString count
  | .atLeast least => "at least " ++ toString least
  | .between least most => "between " ++ toString least ++ " and " ++ toString most

end Arity

end FormScript
