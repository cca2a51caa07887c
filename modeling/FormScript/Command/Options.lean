/-!
# The command line

Options are read from left to right, and the first fault or the first request for
help or for the version decides. After `--` every argument is a file name.

* `-e PROGRAM` evaluates a program given on the command line;
* `FILE` evaluates the program in a file;
* `--history PATH` says where the prompt keeps its history;
* `--vi` chooses the key bindings of the prompt.

A program and a file exclude each other, there is at most one file, and no option
is given twice. The value of an option may be attached to it (`-eX`, `-e=X`,
`--history=X`); as an argument of its own it must not look like an option.
-/

namespace FormScript

/-- What is wrong with a command line. -/
inductive UsageError where
  | unknownOption (option : String)
  | missingValue (option : String)
  | needlessValue (option : String)
  | repeatedOption (option : String)
  | emptyPath (option : String)
  | extraArgument (argument : String)
  | programAndFile
  deriving DecidableEq, Repr

/-- The message about a faulty command line. -/
def UsageError.message : UsageError → String
  | .unknownOption option => "error: unexpected argument '" ++ option ++ "' found"
  | .missingValue option => "error: a value is required for '" ++ option ++ "'"
  | .needlessValue option => "error: unexpected value for '" ++ option ++ "'"
  | .repeatedOption option => "error: '" ++ option ++ "' cannot be used multiple times"
  | .emptyPath option => "error: a value is required for '" ++ option ++ "'"
  | .extraArgument argument => "error: unexpected argument '" ++ argument ++ "' found"
  | .programAndFile => "error: '-e <PROGRAM>' cannot be used with '[FILE]'"

/-- An option that takes a value. -/
inductive Valued where
  | program
  | history
  deriving DecidableEq, Repr

/-- How a command line writes an option that takes a value. -/
def Valued.name : Valued → String
  | .program => "-e"
  | .history => "--history"

/-- What has been said on a command line. -/
structure Options where
  program : Option String
  file : Option String
  history : Option String
  vi : Bool
  deriving DecidableEq, Repr

/-- Why reading a command line stops early. -/
inductive Options.Stop where
  | help
  | version
  | usage (reason : UsageError)
  deriving DecidableEq, Repr

/-- A command line that has been read in part: the options so far, the option whose
value comes next, and whether only file names may follow. -/
structure Options.Partial where
  options : Options
  awaiting : Option Valued
  onlyFiles : Bool
  deriving DecidableEq, Repr

namespace Options

/-- The options of an empty command line. -/
def default : Options := { program := none, file := none, history := none, vi := false }

/-- Whether an argument looks like an option. A lone `-` does not. -/
def looksLikeOption (arg : String) : Bool :=
  match arg.toList with
  | '-' :: _ :: _ => true
  | _ => false

/-- Sets an option that takes a value. -/
def assign (o : Options) (option : Valued) (value : String) : Except Stop Options :=
  match option with
  | .program =>
    if o.program.isSome then .error (.usage (.repeatedOption option.name))
    else .ok { o with program := some value }
  | .history =>
    if value.isEmpty then .error (.usage (.emptyPath option.name))
    else if o.history.isSome then .error (.usage (.repeatedOption option.name))
    else .ok { o with history := some value }

/-- Sets the file. -/
def addFile (o : Options) (path : String) : Except Stop Options :=
  if o.file.isSome then .error (.usage (.extraArgument path))
  else if path.isEmpty then .error (.usage (.emptyPath "[FILE]"))
  else .ok { o with file := some path }

/-- Sets the key bindings. -/
def setVi (o : Options) : Except Stop Options :=
  if o.vi then .error (.usage (.repeatedOption "--vi")) else .ok { o with vi := true }

namespace Partial

/-- Nothing has been read. -/
def start : Partial := { options := default, awaiting := none, onlyFiles := false }

/-- The same reading with other options, and no value to come. -/
def withOptions (p : Partial) (o : Options) : Partial :=
  { p with options := o, awaiting := none }

/-- Reads what follows `--`: the name of an option and, after `=`, its value. -/
def long (p : Partial) (text : List Char) : Except Stop Partial :=
  let name := String.ofList (text.takeWhile (· != '='))
  let value := (text.dropWhile (· != '=')).tail?.map String.ofList
  match name, value with
  | "history", none => .ok { p with awaiting := some .history }
  | "history", some value => (p.options.assign .history value).map p.withOptions
  | "vi", none => p.options.setVi.map p.withOptions
  | "help", none => .error .help
  | "version", none => .error .version
  | "vi", some _ | "help", some _ | "version", some _ =>
    .error (.usage (.needlessValue ("--" ++ name)))
  | _, _ => .error (.usage (.unknownOption ("--" ++ String.ofList text)))

/-- Reads what follows a single `-`. -/
def short (p : Partial) (text : List Char) : Except Stop Partial :=
  match text with
  | ['e'] => .ok { p with awaiting := some .program }
  | 'e' :: '=' :: value => (p.options.assign .program (String.ofList value)).map p.withOptions
  | 'e' :: value => (p.options.assign .program (String.ofList value)).map p.withOptions
  | 'h' :: _ => .error .help
  | 'V' :: _ => .error .version
  | _ => .error (.usage (.unknownOption ("-" ++ String.ofList text)))

/-- Reads one argument. -/
def step (p : Partial) (arg : String) : Except Stop Partial :=
  match p.awaiting with
  | some option =>
    if looksLikeOption arg then .error (.usage (.missingValue option.name))
    else (p.options.assign option arg).map p.withOptions
  | none =>
    if p.onlyFiles then (p.options.addFile arg).map p.withOptions
    else
      match arg.toList with
      | ['-', '-'] => .ok { p with onlyFiles := true }
      | '-' :: '-' :: text => p.long text
      | '-' :: c :: text => p.short (c :: text)
      | _ => (p.options.addFile arg).map p.withOptions

/-- The options of a command line that has been read to its end. -/
def finish (p : Partial) : Except Stop Options :=
  match p.awaiting with
  | some option => .error (.usage (.missingValue option.name))
  | none =>
    if p.options.program.isSome && p.options.file.isSome then .error (.usage .programAndFile)
    else .ok p.options

end Partial

/-- Reads a command line. -/
def ofArgs (args : List String) : Except Stop Options :=
  match args.foldlM Partial.step .start with
  | .ok p => p.finish
  | .error stop => .error stop

/-- Where the prompt keeps its history. -/
def historyPath (o : Options) : String :=
  o.history.getD "vtscript_history.txt"

end Options

end FormScript
