import FormScript.File.Path
import FormScript.Outcome
import FormScript.Prompt.Entry
import FormScript.Report

/-!
# The prompt

The prompt answers entries in one session. An entry that is rejected changes
nothing; one that fails drops every binding made so far, so the session goes on as
if it had just started. The word `exit` leaves the prompt.

`Prompt.run` is a whole conversation about an input. `Prompt.Talk` is a conversation under
way, which is answered line by line as the input comes in.
-/

namespace FormScript.Prompt

/-- The answer to an entry. -/
inductive Response where
  | leave
  | stay (session : Session) (outputs : List Output)

/-- Whether a trimmed entry asks to leave, in whatever case it is written. -/
def isExit (entry : List Char) : Bool :=
  entry.map Char.toLower == "exit".toList

/-- Runs a program in a session. -/
def submit (s : Session) (text : String) : Response :=
  let loaded := s.load (.text text)
  match loaded.answer with
  | .error e =>
    .stay loaded.session
      (.err "Error: Invalid Expression. Could not parse." ::
        ((e.report text).lines "REPL" text).map .err)
  | .ok () =>
    let evaluated := loaded.session.eval
    match evaluated.answer with
    | .ok value => .stay evaluated.session [.out ("(" ++ value.text ++ ")")]
    | .error e => .stay evaluated.session.reset.session [.err ("Error: " ++ e.message)]

/-- Answers an entry; white space around it does not count. -/
def respond (s : Session) (entry : List Char) : Response :=
  let trimmed := trim entry
  if trimmed.isEmpty then .stay s []
  else if isExit trimmed then .leave
  else submit s (String.ofList trimmed)

/-- A conversation: the entries that were answered, the lines written for them and
whether the last one asked to leave. -/
structure Transcript where
  entries : List (List Char)
  outputs : List Output
  left : Bool

/-- Answers entries in order until one asks to leave. -/
def converse (s : Session) : List (List Char) → Transcript
  | [] => { entries := [], outputs := [], left := false }
  | entry :: entries =>
    match respond s entry with
    | .leave => { entries := [entry], outputs := [], left := true }
    | .stay next outputs =>
      let rest := converse next entries
      { rest with entries := entry :: rest.entries, outputs := outputs ++ rest.outputs }

/-- What is written when the input ends before anyone asks to leave. -/
def closing : Entry.Close → List Output
  | .endOfInput => [.out "", .out "Exiting."]
  | .malformedLine =>
    [.err ("Readline Error: Io(Error \x7b kind: InvalidData, message: \"" ++ notUtf8Text ++
      "\" \x7d)")]
  | .broken => []

/-- The greeting, which mentions a missing history. -/
def greeting (historyFound : Bool) : List Output :=
  [.out "vtscript REPL v0.1.0", .out "Type 'exit' or press Ctrl-D to quit."] ++
    if historyFound then [] else [.out "No previous history."]

/-- What is written when there is a history to keep and it cannot be written. -/
def saveFailure (fault : PathFault) : Output :=
  .err ("Readline Error: Io(" ++ fault.details ++ ")")

/-- Whether these entries leave a history to keep; empty entries are not kept. -/
def hasHistory (entries : List (List Char)) : Bool :=
  entries.any fun entry => !entry.isEmpty

/-- The history that entries leave, one line for each: a line feed inside an entry is
written as `\n` and a backslash is doubled. A new history starts with a mark of this
format. -/
def historyText (continued : Bool) (entries : List (List Char)) : String :=
  let escaped (entry : List Char) : List Char :=
    entry.flatMap fun c => if c = '\n' then ['\\', 'n'] else if c = '\\' then [c, c] else [c]
  let kept := entries.filter fun entry => !entry.isEmpty
  let mark := if continued then [] else "#V2\n".toList
  String.ofList (mark ++ kept.flatMap fun entry => escaped entry ++ ['\n'])

/-- The status of a conversation that breaks off. -/
def brokenStatus : Nat := 101

/-- The last lines about the input, if it ends before anyone asks to leave. -/
def farewell (reason : Option Entry.Close) : List Output :=
  reason.toList.flatMap closing

/-- The end of a conversation. Unless the conversation has broken off, its history is kept,
which may fail. -/
def conclude (writable : Except PathFault Unit) (entries : List (List Char))
    (reason : Option Entry.Close) : Outcome :=
  if reason = some .broken then { outputs := [], status := brokenStatus }
  else
    match hasHistory entries, writable with
    | true, .error fault => { outputs := [saveFailure fault], status := 1 }
    | _, _ => { outputs := [], status := 0 }

/-- Why a conversation ends: an entry asks to leave, or else there are no more. -/
def Transcript.reason (transcript : Transcript) (close : Entry.Close) : Option Entry.Close :=
  if transcript.left then none else some close

/-- A whole conversation about an input. -/
def run (reader : LineReader) (historyFound : Bool) (writable : Except PathFault Unit)
    (input : Input) : Outcome :=
  let reading := Entry.read reader input
  let transcript := converse .fresh reading.entries
  let reason := transcript.reason reading.close
  (conclude writable transcript.entries reason).after
    (greeting historyFound ++ transcript.outputs ++ farewell reason)

/-! ## Line by line -/

/-- A conversation under way: its session, what is pending of an entry, and the entries
so far, the latest first. -/
structure Talk where
  session : Session
  pending : List Char
  entries : List (List Char)

/-- What a line makes of a conversation. It ends without a reason if an entry asks to
leave. -/
inductive Turn where
  | goOn (talk : Talk) (outputs : List Output)
  | stop (entries : List (List Char)) (reason : Option Entry.Close)

/-- A conversation that has ended: its entries, the lines written for them and why it
ended. -/
structure Record where
  entries : List (List Char)
  outputs : List Output
  reason : Option Entry.Close

namespace Talk

/-- A conversation that has just begun. -/
def start : Talk := { session := .fresh, pending := [], entries := [] }

/-- Hears one more line, with its line feed. -/
def hearLine (reader : LineReader) (talk : Talk) (line : List Char) : Turn :=
  match reader.addLine Entry.isIncomplete talk.pending line with
  | .broken => .stop talk.entries (some .broken)
  | .incomplete pending => .goOn { talk with pending := pending } []
  | .complete entry =>
    match respond talk.session entry with
    | .leave => .stop (entry :: talk.entries) none
    | .stay next outputs =>
      .goOn { session := next, pending := [], entries := entry :: talk.entries } outputs

/-- Hears the bytes of one more line. -/
def hear (reader : LineReader) (talk : Talk) (bytes : ByteArray) : Turn :=
  match String.fromUTF8? bytes with
  | none => .stop talk.entries (some .malformedLine)
  | some line => talk.hearLine reader line.toList

/-- Hears the lines of an input until one of them ends the conversation. -/
def hearAll (reader : LineReader) (talk : Talk) : List (List UInt8) → Record
  | [] => { entries := talk.entries.reverse, outputs := [], reason := some .endOfInput }
  | piece :: pieces =>
    match talk.hear reader ⟨piece.toArray⟩ with
    | .stop entries reason => { entries := entries.reverse, outputs := [], reason := reason }
    | .goOn next outputs =>
      let rest := next.hearAll reader pieces
      { rest with outputs := outputs ++ rest.outputs }

end Talk

end FormScript.Prompt
