import Std.Data.ExtTreeSet
import FormScript.Keyword
import FormScript.Env
import FormScript.Token.Scan

/-!
# Completion of names

At a cursor that ends an atom, the atom can be completed to any bound or reserved
name that begins with it. Anywhere else there is nothing to complete.
-/

namespace FormScript

/-- Names that can replace the text from `start` to the cursor. -/
structure Completion where
  start : Nat
  candidates : List String
  deriving DecidableEq, Repr

namespace Completion

/-- The bound and reserved names with this beginning, in order and each once. -/
def namesFrom (env : Env) (beginning : String) : List String :=
  let known := env.names ++ Keyword.all.map Keyword.name
  let fitting := known.filter fun name => beginning.toList.isPrefixOf name.toList
  (Std.ExtTreeSet.ofList fitting).toList

/-- Completes the atom before the byte position `cursor` of a line. -/
def find (env : Env) (line : String) (cursor : Nat) : Completion :=
  let before := takeBytes cursor line.toList
  match (Token.scanFrom .between .origin before).getLast? with
  | some token =>
    if token.kind = .atom ∧ token.span.stop = cursor then
      { start := cursor - byteLength token.text.toList, candidates := namesFrom env token.text }
    else { start := cursor, candidates := [] }
  | none => { start := cursor, candidates := [] }

end Completion

end FormScript
