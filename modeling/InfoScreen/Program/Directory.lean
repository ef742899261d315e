import InfoScreen.Path
import InfoScreen.Program.Run

/-!
# Directories

A directory is the list of the files in it, by their paths inside it.  Seen as a disk, it is the
working directory of a system: relative paths start in it, absolute paths at the root.  A path
walks through directories that exist, and its last part must name a file.

Of the system around the directory little is known.  It has some directories, among them those for
temporary files, in one of which the directory itself lies; it has devices; and the standard input
of a command is empty.
-/

namespace InfoScreen.Program

structure Directory where
  files : List (String × ByteArray) := []

namespace Directory

def pathOf (name : String) : List (List Char) := Path.splitSlash name.toList

/-- The directory of the system in which the working directory lies. -/
def surroundings : List (List Char) := pathOf "tmp"

def temporary : List (List (List Char)) :=
  [surroundings, pathOf "var/tmp", pathOf "dev/shm"]

/-- The directory of the system that lists the open files of a command. -/
def openFiles : List (List Char) := pathOf "proc/self/fd"

def systemDirectories : List (List (List Char)) :=
  openFiles :: temporary ++
    ["dev", "etc", "home", "proc", "proc/self", "sys", "usr", "var"].map pathOf

/-- The devices of the system and what they do with text. -/
def devices : List (List (List Char) × Sink) := [
  (pathOf "dev/null", .null), (pathOf "dev/zero", .null), (pathOf "dev/random", .null),
  (pathOf "dev/urandom", .null), (pathOf "dev/full", .full), (pathOf "dev/stdin", .null),
  (pathOf "dev/stdout", .output), (pathOf "dev/stderr", .errors),
  (openFiles ++ [['0']], .null), (openFiles ++ [['1']], .output), (openFiles ++ [['2']], .errors)]

def emptyDevices : List (List (List Char)) :=
  [pathOf "dev/null", pathOf "dev/stdin", openFiles ++ [['0']]]

/-- A directory that a walk along a path has come to. -/
inductive Place where
  /-- A directory in the working directory, by the parts of its path from there. -/
  | inside (parts : List (List Char))
  /-- A directory of the system, by the parts of its path from the root. -/
  | outside (parts : List (List Char))
  deriving DecidableEq

/-- Names of the system that stand for directories elsewhere. -/
def links : List (List (List Char) × Place) := [
  (pathOf "dev/fd", .outside openFiles), (pathOf "proc/self/cwd", .inside []),
  (pathOf "proc/self/root", .outside [])]

/-- The directory around a directory; the root is its own. -/
def Place.parent : Place → Place
  | inside [] => outside surroundings
  | inside parts => inside parts.dropLast
  | outside parts => outside parts.dropLast

/-- Whether there is a directory with some path inside the working directory. -/
def hasDirectory (directory : Directory) (parts : List (List Char)) : Bool :=
  parts = [] ∨ directory.files.any fun file ↦
    parts.length < (pathOf file.1).length ∧ parts <+: pathOf file.1

def enter? (directory : Directory) (place : Place) (name : List Char) : Option Place :=
  match place with
  | .inside parts =>
    if directory.hasDirectory (parts ++ [name]) then some (.inside (parts ++ [name])) else none
  | .outside parts =>
    match links.find? fun link ↦ link.1 = parts ++ [name] with
    | some link => some link.2
    | none =>
      if parts ++ [name] ∈ systemDirectories then some (.outside (parts ++ [name])) else none

/-- Walks along the parts of a path; answers the last directory and the name of the file in it. -/
def walk? (directory : Directory) (place : Place) : List (List Char) → Option (Place × List Char)
  | [] => none
  | [name] => if Path.isVoid name ∨ name = ['.', '.'] then none else some (place, name)
  | part :: rest =>
    if Path.isVoid part then walk? directory place rest
    else if part = ['.', '.'] then walk? directory place.parent rest
    else
      match directory.enter? place part with
      | some place => walk? directory place rest
      | none => none

/-- The longest path that leads anywhere, in bytes. -/
def maxPathLength : Nat := 4095

/-- The longest name that a file can have, in bytes. -/
def maxNameLength : Nat := 255

def resolve? (directory : Directory) (path : String) : Option (Place × List Char) :=
  if maxPathLength < path.utf8ByteSize then none
  else
    match path.toList with
    | '/' :: cs => directory.walk? (.outside []) (Path.splitSlash cs)
    | cs => directory.walk? (.inside []) (Path.splitSlash cs)

/-- The name under which the directory lists a path. -/
def listedName? (directory : Directory) (path : String) : Option String :=
  match directory.resolve? path with
  | some (.inside parts, name) => some (String.ofList (Path.joinSlash (parts ++ [name])))
  | _ => none

def read? (directory : Directory) (path : String) : Option ByteArray :=
  match directory.resolve? path with
  | some (.inside parts, name) =>
    (directory.files.find? fun file ↦ pathOf file.1 = parts ++ [name]).map Prod.snd
  | some (.outside parts, name) =>
    if parts ++ [name] ∈ emptyDevices then some .empty else none
  | none => none

/-- What is behind a path.  Files can be created in the working directory, in the directories in
it and among the temporary files. -/
def sink? (directory : Directory) (path : String) : Option Sink :=
  match directory.resolve? path with
  | some (.inside parts, name) =>
    if directory.hasDirectory (parts ++ [name]) then none else newFile? name
  | some (.outside parts, name) =>
    match devices.find? fun device ↦ device.1 = parts ++ [name] with
    | some device => some device.2
    | none => if parts ∈ temporary then newFile? name else none
  | none => none
where
  newFile? (name : List Char) : Option Sink :=
    if (String.ofList name).utf8ByteSize ≤ maxNameLength then some .file else none

def disk (directory : Directory) : Disk := ⟨directory.read?, directory.sink?⟩

/-- The files that were not there before some files were written, with their contents. -/
def created (directory : Directory) (written : List (String × String)) : List (String × String) :=
  written.filterMap fun (path, content) ↦ do
    let name ← directory.listedName? path
    if directory.files.any fun file ↦ file.1 = name then none else some (name, content)

end Directory

end InfoScreen.Program
