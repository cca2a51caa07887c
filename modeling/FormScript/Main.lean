import FormScript.Command

/-!
# The program

Reads files and standard input, hands them to the command and writes what it
answers. At the prompt every line is answered as it comes in (`Prompt.Talk.hear`).
-/

namespace FormScript.Main

/-- Writes a line to its channel. -/
def write : Output → IO Unit
  | .out line => IO.println line
  | .err line => IO.eprintln line

/-- Writes the lines of an outcome and returns its status. -/
def finish (outcome : Outcome) : IO UInt32 := do
  outcome.outputs.forM write
  return UInt32.ofNat outcome.status

/-- What is wrong with a file name, by the error that opening the file gave. The system
reports the number of a fault with either sign. -/
def faultOf : IO.Error → PathFault
  | .inappropriateType _ code _ =>
    if code = 20 ∨ code + 20 = 0 then .notFolder else .isFolder
  | .invalidArgument _ _ _ => .nameTooLong
  | _ => .missing

/-- The content of a file, or why it cannot be read. -/
def readFile (path : String) : IO (Except PathFault ByteArray) := do
  try
    return .ok (← IO.FS.readBinFile path)
  catch e =>
    return .error (faultOf e)

/-- Reads the bytes up to the next line feed, or to the end of the input. -/
partial def readLine (stdin : IO.FS.Stream) (line : ByteArray) : IO ByteArray := do
  let next ← stdin.read 1
  if next.isEmpty then return line
  let line := line ++ next
  if next.data == #[10] then return line else readLine stdin line

/-- Hears lines until the input or a line ends the conversation. Returns the entries and
why it ended. -/
partial def converse (stdin : IO.FS.Stream) (talk : Prompt.Talk) :
    IO (List (List Char) × Option Entry.Close) := do
  let bytes ← readLine stdin .empty
  if bytes.isEmpty then return (talk.entries.reverse, some .endOfInput)
  match talk.hear Erasure.reader bytes with
  | .stop entries reason => return (entries.reverse, reason)
  | .goOn next outputs =>
    outputs.forM write
    converse stdin next

/-- Adds the entries of a conversation to the history, if there is something to keep. -/
def saveHistory (path : String) (previous : Option ByteArray) (entries : List (List Char)) :
    IO (Except PathFault Unit) := do
  if Prompt.hasHistory entries then
    let kept := (Prompt.historyText previous.isSome entries).toUTF8
    try
      IO.FS.writeBinFile path (previous.getD .empty ++ kept)
      return .ok ()
    catch e =>
      return .error (faultOf e)
  else return .ok ()

/-- Answers entries from standard input. -/
def prompt (options : Options) : IO UInt32 := do
  let history ← readFile options.historyPath
  (Prompt.greeting (Command.usableHistory history)).forM write
  let (entries, reason) ← converse (← IO.getStdin) .start
  (Prompt.farewell reason).forM write
  let saved ←
    if reason = some .broken then pure (.ok ())
    else saveHistory options.historyPath history.toOption entries
  finish (Prompt.conclude saved entries reason)

end FormScript.Main

/-- Runs the command line. -/
def main (args : List String) : IO UInt32 := do
  match FormScript.Options.ofArgs args with
  | .error stop => FormScript.Main.finish (FormScript.Command.stopped stop)
  | .ok options =>
    match options.program, options.file with
    | some text, _ => FormScript.Main.finish (FormScript.Command.runText "-e" text)
    | none, some path => do
      let content ← FormScript.Main.readFile path
      FormScript.Main.finish (FormScript.Command.runFile path content)
    | none, none => FormScript.Main.prompt options
