import FormScript.File.Disk
import FormScript.Command.Options
import FormScript.Prompt
import FormScript.Prompt.Erasure

/-!
# The command

A command runs one program, from the command line or from a file, or else starts
the prompt, with the line reader that carries out backspaces. The status is zero on
success, one if something went wrong, and two if the command line makes no sense.
-/

namespace FormScript.Command

/-- An outcome that reports an error in the text `name`. -/
def failure (report : Report) (name text : String) : Outcome where
  outputs := (report.lines name text).map .err
  status := 1

/-- Runs one program in a session of its own. -/
def runText (name text : String) : Outcome :=
  let loaded := Session.fresh.load (.text text)
  match loaded.answer with
  | .error e => failure (e.report text) name text
  | .ok () =>
    match loaded.session.eval.answer with
    | .ok value => { outputs := [.out ("(" ++ value.text ++ ")")], status := 0 }
    | .error e => failure (e.report text) name text

/-- The outcome for a file that cannot be read. -/
def unreadable (path reason : String) : Outcome where
  outputs := [.err ("Error: could not read '" ++ path ++ "': " ++ reason)]
  status := 1

/-- Runs the program in a file, given its content or why it cannot be read. -/
def runFile (path : String) (content : Except PathFault ByteArray) : Outcome :=
  match content with
  | .error fault => unreadable path fault.message
  | .ok bytes =>
    match String.fromUTF8? bytes with
    | none => unreadable path notUtf8Text
    | some text => runText path text

/-- Whether the content of a history file can be used. -/
def usableHistory (content : Except PathFault ByteArray) : Bool :=
  (content.toOption.bind String.fromUTF8?).isSome

/-- The outcome of a command line that is not run. -/
def stopped : Options.Stop → Outcome
  | .help =>
    { outputs :=
        [.out "Interpreter for vtscript, a small S-expression language", .out "",
         .out "Usage: vtscript [OPTIONS] [FILE]", .out "",
         .out "Arguments:",
         .out "  [FILE]  Script file to run", .out "",
         .out "Options:",
         .out "  -e <PROGRAM>             Evaluate PROGRAM instead of reading a file",
         .out ("      --history <HISTORY>  Where the interactive prompt keeps its history " ++
           "[default: vtscript_history.txt]"),
         .out "      --vi                 Use vi key bindings at the interactive prompt",
         .out "  -h, --help               Print help",
         .out "  -V, --version            Print version"],
      status := 0 }
  | .version => { outputs := [.out "vtscript 0.1.0"], status := 0 }
  | .usage reason => { outputs := [.err reason.message], status := 2 }

/-- Runs a command line with these files and this standard input. -/
def run (disk : Disk) (stdin : ByteArray) (args : List String) : Outcome :=
  match Options.ofArgs args with
  | .error stop => stopped stop
  | .ok options =>
    let disk := disk.withDevices stdin
    match options.program, options.file with
    | some text, _ => runText "-e" text
    | none, some path => runFile path (disk.read path)
    | none, none =>
      Prompt.run Erasure.reader (usableHistory (disk.read options.historyPath))
        (disk.canWrite options.historyPath) (.ofBytes stdin)

end FormScript.Command
