import FormScript.Session
import FormScript.Text.Blank
import FormScript.Text.Place

/-!
# Reports

A report shows an error in the text of the program: a title, a stretch of the text
and a label for that stretch. A rejected program is shown at the token at fault, or
at its end if there is no such token; a failed evaluation is shown at the whole
program.
-/

namespace FormScript

/-- An error, ready to be shown against a text. -/
structure Report where
  title : String
  span : Span
  label : String
  deriving DecidableEq, Repr

namespace Report

/-- Where a report about `text` begins, under the name of the text. -/
def location (r : Report) (name text : String) : String :=
  let place := Place.find text.toList r.span.start
  name ++ ":" ++ toString place.line ++ ":" ++ toString place.column

/-- The last line of `text` that a report is about. -/
def lastLine (r : Report) (text : String) : Nat :=
  Place.lastLine text.toList r.span

/-- A report in lines of text. -/
def lines (r : Report) (name text : String) : List String :=
  [r.title, "  at " ++ r.location name text ++ ": " ++ r.label]

end Report

/-- What is said about the text at fault. -/
def ParseError.label : ParseError → String
  | .invalidToken _ => "This token is not valid here"
  | .unclosed _ => "This list is never closed"
  | .unmatchedClose _ => "There is no list to close"
  | .emptyList _ => "Lists need at least one element"
  | .bareAtom _ => "Wrap this in parentheses"
  | .emptyProgram => "Expected at least one expression"
  | .unreadable reason => reason

/-- The report of a rejected program. -/
def ParseError.report (e : ParseError) (text : String) : Report where
  title := "Error: Parse error: " ++ e.message
  span :=
    match e.token? with
    | some token => token.span
    | none => { start := byteLength text.toList, stop := byteLength text.toList }
  label := e.label

/-- The report of an error begins where its token starts. -/
theorem ParseError.report_start {e : ParseError} {token : Token} (carried : e.token? = some token)
    (text : String) : (e.report text).span.start = token.span.start := by
  unfold report
  rw [carried]

/-- The report of a failed evaluation. -/
def SessionError.report (e : SessionError) (text : String) : Report where
  title := "Error: Semantic error: " ++ e.message
  span := trimmedSpan text.toList
  label := "Error occurred while evaluating this"

end FormScript
