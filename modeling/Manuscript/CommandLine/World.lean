import Manuscript.CommandLine.Host
import Manuscript.CommandLine.Path

/-! # Files as a value

A world is a tree of files with a working directory in it, together with an input
and what has been written to the output and as diagnostics. Files are named by
their paths from the root; a directory is there if something is in it, and so are
the working directory and what is listed as a folder. It is a host for commands
whose effects can be looked at afterwards.
-/

namespace Manuscript.CommandLine

/-- What is done to a file. -/
inductive Access where
  | read
  | write
  deriving DecidableEq, Repr

/-- Files, an input, and what has been written. -/
structure World where
  /-- The steps from the root to the working directory, the last first. -/
  here : List String := []
  /-- Directories that are there even if nothing is in them. -/
  folders : List String := []
  files : List (String × ByteArray) := []
  /-- The number and the text of the error with which the system keeps a file from an access. -/
  refuses : Access → String → Option (Int × String) := fun _ _ => none
  input : ByteArray := .empty
  output : ByteArray := .empty
  diagnostics : String := ""

namespace World

/-! ## Places -/

/-- What is at a path. -/
inductive Place where
  | directory
  /-- A file, or nothing where a file can be made. -/
  | file (name : String)
  /-- Nothing can be there: a step on the way leads to nothing, or to a file. -/
  | unreachable (throughFile : Bool)

/-- The content of a file. -/
def content? (world : World) (name : String) : Option ByteArray :=
  (world.files.find? (·.1 == name)).map (·.2)

/-- The path from the root of steps of which the last is the first. -/
def nameOf (steps : List String) : String := "/".intercalate steps.reverse

/-- What is known to be there, with a separator after the names of directories. -/
def names (world : World) : List String :=
  (nameOf world.here :: world.folders).map (· ++ "/") ++ world.files.map (·.1)

/-- Whether there is a directory at the end of steps from the root. -/
def isDirectory (world : World) (steps : List String) : Bool :=
  steps.isEmpty ||
    world.names.any fun name => (nameOf steps ++ "/").toList.isPrefixOf name.toList

/-- Follow steps from a directory, whose own steps are given with the last first. The directory
above the root is the root. -/
def follow (world : World) (dir : List String) : List String → Place
  | [] => .directory
  | ".." :: rest => follow world dir.tail rest
  | step :: rest =>
    let there := step :: dir
    if world.isDirectory there then follow world there rest
    else if rest.isEmpty then .file (nameOf there)
    else .unreachable (world.content? (nameOf there)).isSome

/-- What is at a path. -/
def place (world : World) (path : String) : Place :=
  world.follow (if isAbsolutePath path then [] else world.here) (pathSteps path)

/-! ## Errors -/

def absent (path : String) : FileError := .system ⟨2, "No such file or directory", some path⟩

def throughFile (path : String) : FileError := .system ⟨20, "Not a directory", some path⟩

def notFile (path : String) : FileError := .system ⟨21, "Is a directory", some path⟩

/-! ## Effects -/

/-- The file at a path that is there or can be made, unless the system keeps it from the access. -/
def locate (world : World) (access : Access) (path : String) : Except FileError String :=
  let allowed (name : String) : Except FileError String :=
    match world.refuses access name with
    | some (number, text) => .error (.system ⟨number, text, some path⟩)
    | none => .ok name
  if holdsZero path then .error .zeroInPath
  else
    match world.place path with
    | .file name => allowed name
    | .directory => .error (notFile path)
    | .unreachable false => .error (absent path)
    | .unreachable true => .error (throughFile path)

/-- The content of the file at a path. -/
def read (world : World) (path : String) : Except FileError ByteArray := do
  match world.content? (← world.locate .read path) with
  | some content => return content
  | none => throw (absent path)

/-- Give a file a content; a new file stands last. -/
def put (world : World) (name : String) (content : ByteArray) : World :=
  if world.files.any (·.1 == name) then
    { world with
      files := world.files.map fun file => if file.1 == name then (name, content) else file }
  else { world with files := world.files ++ [(name, content)] }

/-- Change the content of the file at a path, made empty if it is not there. -/
def change (world : World) (path : String) (change : ByteArray → ByteArray) :
    Except FileError World := do
  let name ← world.locate .write path
  return world.put name (change ((world.content? name).getD .empty))

/-- Change the content of the file at a path, and say whether that was possible. -/
def tryChange (path : String) (change : ByteArray → ByteArray) :
    StateM World (Except FileError Unit) := do
  match (← get).change path change with
  | .ok world =>
    set world
    return .ok ()
  | .error error => return .error error

/-- A world as a host, with tools, perhaps a formatter named by the surroundings, and readers. -/
def host (tools : Typeset.Tools) (formatter : Option String) (readers : Readers := {}) :
    Host (StateM World) where
  readFile path := return (← get).read path
  writeFile path content := tryChange path fun _ => content
  openLog path := tryChange path id
  appendLog path line := discard (tryChange path (· ++ line.toUTF8))
  readInput := return (← get).input
  writeOutput content := modify fun world => { world with output := world.output ++ content }
  writeDiagnostics text :=
    modify fun world => { world with diagnostics := world.diagnostics ++ text }
  stamp := return ""
  formatter
  tools
  readers

end World

end Manuscript.CommandLine
