import FormScript.File.Path

/-!
# Files by name

The files that a command can see, under absolute names or under names relative to the
folder it runs in. The folders are those that the names mention. What lies above the
folder that the command runs in is a folder too, but nothing is known of its content.

A name is followed part by part, and the first part that leads nowhere decides what
is wrong with it.
-/

namespace FormScript

/-- The files that a command can see. -/
structure Disk where
  files : List (String × ByteArray)

/-- A folder: one with known content, by the parts of its name from the root or from
where the command runs, or one of which nothing is known. -/
inductive Folder where
  | known (absolute : Bool) (parts : List String)
  | unknown
  deriving DecidableEq, Repr

/-- The folder that holds a folder. The root holds itself. -/
def Folder.parent : Folder → Folder
  | .known true parts => .known true parts.dropLast
  | .known false [] => .unknown
  | .known false parts => .known false parts.dropLast
  | .unknown => .unknown

/-- What a name leads to. -/
inductive Node where
  | folder (folder : Folder)
  | file (content : ByteArray)

namespace Disk

/-- The same files and the two that every system has: one that is always empty and
one that holds the standard input. -/
def withDevices (disk : Disk) (stdin : ByteArray) : Disk :=
  { files := disk.files ++ [("/dev/null", .empty), ("/dev/stdin", stdin)] }

/-- The file or the folder with these parts. -/
def lookup (disk : Disk) (absolute : Bool) (parts : List String) : Except PathFault Node :=
  let named := disk.files.filter fun file => (Path.ofName file.1).absolute == absolute
  match named.find? fun file => Path.partsOf file.1 == parts with
  | some file => .ok (.file file.2)
  | none =>
    if named.any fun file => parts.isPrefixOf (Path.partsOf file.1) then
      .ok (.folder (.known absolute parts))
    else .error .missing

/-- Follows one part of a name from a folder. -/
def enter (disk : Disk) (folder : Folder) (part : String) : Except PathFault Node :=
  if part = "." then .ok (.folder folder)
  else if part = ".." then .ok (.folder folder.parent)
  else if Path.exceeds part Path.partLimit then .error .nameTooLong
  else
    match folder with
    | .unknown => .error .missing
    | .known absolute parts => disk.lookup absolute (parts ++ [part])

/-- Follows the parts of a name. -/
def walk (disk : Disk) (node : Node) : List String → Except PathFault Node
  | [] => .ok node
  | part :: parts =>
    match node with
    | .file _ => .error .notFolder
    | .folder folder =>
      match disk.enter folder part with
      | .ok next => disk.walk next parts
      | .error fault => .error fault

/-- Where a name begins to be followed. -/
def start (path : Path) : Node :=
  .folder (.known path.absolute [])

/-- The content of the file with this name. -/
def read (disk : Disk) (name : String) : Except PathFault ByteArray :=
  let path := Path.ofName name
  if Path.exceeds name Path.nameLimit then .error .nameTooLong
  else
    match disk.walk (start path) (path.parts ++ if path.asFolder then ["."] else []) with
    | .ok (.file content) => .ok content
    | .ok (.folder _) => .error .isFolder
    | .error fault => .error fault

/-- Whether a file can be written in a folder under a single part. -/
def canWriteIn (disk : Disk) (folder : Folder) (part : String) : Except PathFault Unit :=
  match disk.enter folder part with
  | .ok (.file _) | .error .missing => .ok ()
  | .ok (.folder _) => .error .isFolder
  | .error fault => .error fault

/-- Whether a file can be written under this name, where there may be one or not. The
last part must not stand for a folder. -/
def canWrite (disk : Disk) (name : String) : Except PathFault Unit :=
  let path := Path.ofName name
  let last := path.parts.getLast?.getD "."
  let before := if Path.isDots last then path.parts else path.parts.dropLast
  if Path.exceeds name Path.nameLimit then .error .nameTooLong
  else
    match disk.walk (start path) before with
    | .error fault => .error fault
    | .ok (.file _) => .error .notFolder
    | .ok (.folder folder) =>
      if path.asFolder || Path.isDots last then .error .isFolder
      else disk.canWriteIn folder last

end Disk

end FormScript
