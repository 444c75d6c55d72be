import EventScript.Console
import EventScript.OrderedMap

/-!
# Files

A tree of files and directories, with the directory in which the program works. A path is walked
from its first component on, and every component before the last must name a directory; what the
last may name depends on what is done with it.
-/

namespace EventScript

/-- Why a file could not be read or written. -/
inductive FileProblem where
  | notFound
  | alreadyExists
  | notDirectory
  | isDirectory
  | nameTooLong
  /-- A path with a NUL character names nothing. -/
  | nulInPath
  | notUtf8
  /-- Another problem, with the number and the wording of the system. -/
  | system (code : Nat) (wording : String)
deriving DecidableEq, Inhabited

namespace FileProblem

/-- The number that the system gives to the problem. -/
def code? : FileProblem → Option Nat
  | notFound => some 2
  | alreadyExists => some 17
  | notDirectory => some 20
  | isDirectory => some 21
  | nameTooLong => some 36
  | nulInPath => none
  | notUtf8 => none
  | system code _ => some code

/-- The problems that have a name here and a number. -/
def numbered : List FileProblem :=
  [notFound, alreadyExists, notDirectory, isDirectory, nameTooLong]

/-- The problem that the system gives this number and wording. -/
def ofCode (code : Nat) (wording : String) : FileProblem :=
  (numbered.find? fun problem => problem.code? = some code).getD (system code wording)

/-- The wording, without the number. -/
def wording : FileProblem → String
  | notFound => "No such file or directory"
  | alreadyExists => "File exists"
  | notDirectory => "Not a directory"
  | isDirectory => "Is a directory"
  | nameTooLong => "File name too long"
  | nulInPath => "file name contained an unexpected NUL byte"
  | notUtf8 => invalidUtf8
  | system _ wording => wording

/-- The printed form. -/
def text (problem : FileProblem) : String :=
  match problem.code? with
  | some code => problem.wording ++ " (os error " ++ toString code ++ ")"
  | none => problem.wording

/-- The printed form with the path and, once more, the number. -/
def describe (problem : FileProblem) (path : String) : String :=
  let number := match problem.code? with
    | some code => " (os error code " ++ toString code ++ ")"
    | none => ""
  "`" ++ path ++ "`: " ++ problem.text ++ number

end FileProblem

/-- A file or a directory. -/
inductive FileNode where
  | file (content : List UInt8)
  | directory
deriving DecidableEq, Inhabited

/-- How a file is opened for writing. -/
inductive WriteMode where
  | truncate | append | createNew
deriving DecidableEq, Inhabited

/-- The place of a file or directory: the names on the way from the root. -/
abbrev Location := List String

/-- What a path leads to, before anything is known of its last component. -/
inductive PathTarget where
  /-- A directory that has been reached. -/
  | reached
  /-- A name in a directory, and whether a slash follows it. -/
  | entry (location : Location) (slash : Bool)

/-- All files and directories, by location, and the directory that relative paths start from. The
root, the working directory and those around it exist without being listed. -/
structure Files where
  home : Location := ["work"]
  nodes : OrderedMap Location FileNode := {}

instance : Inhabited Files := ⟨{}⟩

namespace Files

/-- The longest name of a file, in bytes. -/
def longestName : Nat := 255

/-- The longest path, in bytes. -/
def longestPath : Nat := 4095

/-- What there is at a location. -/
def node? (files : Files) (location : Location) : Option FileNode :=
  if location <+: files.home then some .directory else files.nodes.find? location

/-- Puts a file with that content at a location. -/
def store (files : Files) (location : Location) (content : List UInt8) : Files :=
  { files with nodes := files.nodes.insert location (.file content) }

/-- Walks a list of components from a directory. -/
def walk (files : Files) (slash : Bool) : Location → List String → Except FileProblem PathTarget
  | _, [] => .ok .reached
  | current, component :: rest =>
    if component = "." then walk files slash current rest
    else if component = ".." then walk files slash current.dropLast rest
    else
      let next := current ++ [component]
      match rest with
      | [] => .ok (.entry next slash)
      | _ :: _ =>
        if longestName < component.utf8ByteSize then .error .nameTooLong
        else match files.node? next with
          | none => .error .notFound
          | some (.file _) => .error .notDirectory
          | some .directory => walk files slash next rest

/-- Follows a path up to its last component. Repeated slashes count once. -/
def target (files : Files) (path : String) : Except FileProblem PathTarget :=
  if '\x00' ∈ path.toList then .error .nulInPath
  else if path = "" then .error .notFound
  else if longestPath < path.utf8ByteSize then .error .nameTooLong
  else
    let components := (path.splitOn "/").filter fun component => component ≠ ""
    let start := if path.toList.head? = some '/' then [] else files.home
    walk files (path.toList.getLast? = some '/') start components

/-- Whether the last name of a location is too long. -/
def lastTooLong (location : Location) : Bool :=
  longestName < (location.getLast?.getD "").utf8ByteSize

/-- The bytes of the file that a path leads to. -/
def readBytes (files : Files) (path : String) : Except FileProblem (List UInt8) := do
  match ← files.target path with
  | .reached => throw .isDirectory
  | .entry location slash =>
    if lastTooLong location then throw .nameTooLong
    match files.node? location with
    | none => throw .notFound
    | some .directory => throw .isDirectory
    | some (.file content) => if slash then throw .notDirectory else return content

/-- The text of the file that a path leads to. -/
def read (files : Files) (path : String) : Except FileProblem String := do
  match decodeUtf8? (← files.readBytes path) with
  | some content => return content
  | none => throw .notUtf8

/-- What a file holds after writing, given what was there. -/
def written (mode : WriteMode) (before : Option FileNode) (data : List UInt8) :
    Except FileProblem (List UInt8) :=
  match before, mode with
  | none, _ => .ok data
  | some _, .createNew => .error .alreadyExists
  | some .directory, _ => .error .isDirectory
  | some (.file _), .truncate => .ok data
  | some (.file content), .append => .ok (content ++ data)

/-- Writes to the file that a path leads to. -/
def write (files : Files) (path : String) (mode : WriteMode) (data : List UInt8) :
    Except FileProblem Files := do
  match ← files.target path with
  | .reached => throw (if mode = .createNew then .alreadyExists else .isDirectory)
  | .entry location slash =>
    if slash then throw .isDirectory
    if lastTooLong location then throw .nameTooLong
    return files.store location (← written mode (files.node? location) data)

end Files

end EventScript
