import FormScript.Prompt.Input
import FormScript.Token.Scan

/-!
# Entries at the prompt

An entry is one line, or several if a list is still open at the end of a line. What
remains open when the input ends is no entry.

How lines make an entry is left to a line reader, which asks after each line whether the
entry has to go on (`Entry.isIncomplete`). The prompt works with any reader. What can be
said about its entries depends on what the reader is known to do: that it submits only
what it was told is complete (`LineReader.SubmitsComplete`), or that it takes a text the
way it is typed (`LineReader.TakesAsTyped`).
-/

namespace FormScript

namespace Entry

/-- Whether a list is open after these tokens, when `depth` lists are open before
them. A closing paren too many settles the matter: nothing that follows can make
the text a program. -/
def staysOpen (depth : Nat) : List Token → Bool
  | [] => 0 < depth
  | token :: tokens =>
    match token.kind, depth with
    | .opening, _ => staysOpen (depth + 1) tokens
    | .closing, 0 => false
    | .closing, depth + 1 => staysOpen depth tokens
    | .atom, _ => staysOpen depth tokens

/-- Whether an entry has to go on in the next line. -/
def isIncomplete (entry : List Char) : Bool :=
  staysOpen 0 (Token.scanFrom .between .origin entry)

/-- The end of a line: its line feed and one carriage return before that. -/
def ending (line : List Char) : List Char :=
  match line.reverse with
  | '\n' :: '\r' :: _ => ['\r', '\n']
  | '\n' :: _ => ['\n']
  | _ => []

/-- A line without its end. -/
def dropEnding (line : List Char) : List Char :=
  line.take (line.length - (ending line).length)

/-- What one more line makes of an entry. The reader may also break off. -/
inductive Progress where
  | complete (entry : List Char)
  | incomplete (pending : List Char)
  | broken
  deriving DecidableEq, Repr

end Entry

/-- A line reader: adds a line to what is pending of an entry. It can ask whether a text is
incomplete. -/
structure LineReader where
  addLine : (incomplete : List Char → Bool) → (pending line : List Char) → Entry.Progress

namespace LineReader

/-- The reader that takes every text as it is typed. It asks about the text without the end
of its last line, and an entry that goes on gets this end back. -/
def plain : LineReader where
  addLine incomplete pending line :=
    let entry := pending ++ Entry.dropEnding line
    if incomplete entry then .incomplete (entry ++ Entry.ending line) else .complete entry

/-- The reader submits only what it was told is complete. -/
def SubmitsComplete (reader : LineReader) : Prop :=
  ∀ (incomplete : List Char → Bool) (pending line entry : List Char),
    reader.addLine incomplete pending line = .complete entry → incomplete entry = false

/-- The reader takes the lines of a text as they are typed. -/
def TakesAsTyped (reader : LineReader) (text : List Char) : Prop :=
  ∀ (incomplete : List Char → Bool) (pending line : List Char), pending ++ line <+: text →
    reader.addLine incomplete pending line = plain.addLine incomplete pending line

end LineReader

namespace Entry

/-- Why no further entry is read. -/
inductive Close where
  | endOfInput
  | malformedLine
  | broken
  deriving DecidableEq, Repr

/-- The entries of an input and why there are no more. -/
structure Reading where
  entries : List (List Char)
  close : Close
  deriving DecidableEq, Repr

/-- The entries that lines form, after what is pending. -/
def ofLines (reader : LineReader) (close : Close) (pending : List Char) :
    List (List Char) → Reading
  | [] => { entries := [], close := close }
  | line :: lines =>
    match reader.addLine isIncomplete pending line with
    | .complete entry =>
      let rest := ofLines reader close [] lines
      { rest with entries := entry :: rest.entries }
    | .incomplete pending => ofLines reader close pending lines
    | .broken => { entries := [], close := .broken }

/-- Why no entry follows the last line of an input. -/
def closeOf (input : Input) : Close :=
  if input.malformed then .malformedLine else .endOfInput

/-- Reads the entries of an input. -/
def read (reader : LineReader) (input : Input) : Reading :=
  ofLines reader (closeOf input) [] input.lines

end Entry

end FormScript
