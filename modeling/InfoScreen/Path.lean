/-!
# Paths

A path is a text whose parts are separated by slashes.  It may start at the root or, spelled out by
a leading dot, at the current directory.  Empty parts and single dots elsewhere name nothing: at
the end of a path they are dropped, and inside it they stay as they are written.  The last part is
a file name unless it is a double dot.
-/

namespace InfoScreen

inductive Path.Start where
  /-- The root: the path begins with a slash. -/
  | root
  /-- The current directory, written as a leading dot. -/
  | dot
  /-- The current directory, left unsaid. -/
  | unsaid
  deriving DecidableEq

/-- A path taken apart: its start and the parts after it. -/
structure Path where
  start : Path.Start
  parts : List (List Char)
  deriving DecidableEq

namespace Path

def splitSlash : List Char → List (List Char)
  | [] => [[]]
  | c :: rest =>
    if c = '/' then [] :: splitSlash rest
    else
      match splitSlash rest with
      | [] => [[c]]
      | part :: more => (c :: part) :: more

def joinSlash : List (List Char) → List Char
  | [] => []
  | [part] => part
  | part :: more => part ++ '/' :: joinSlash more

/-- Whether a part names nothing. -/
def isVoid (part : List Char) : Bool := part = [] ∨ part = ['.']

def dropVoid (parts : List (List Char)) : List (List Char) :=
  (parts.reverse.dropWhile isVoid).reverse

/-- Takes a path apart; parts at its end that name nothing are gone. -/
def ofText (text : List Char) : Path :=
  match splitSlash text with
  | [] :: part :: parts => ⟨.root, dropVoid (part :: parts)⟩
  | ['.'] :: parts => ⟨.dot, dropVoid parts⟩
  | parts => ⟨.unsaid, dropVoid parts⟩

/-- Writes a path down. -/
def text (path : Path) : List Char :=
  match path.start with
  | .root => '/' :: joinSlash path.parts
  | .dot => joinSlash (['.'] :: path.parts)
  | .unsaid => joinSlash path.parts

/-- The file name of a path, if its last part is one. -/
def fileName? (path : Path) : Option (List Char) :=
  match path.parts.getLast? with
  | some part => if part = ['.', '.'] then none else some part
  | none => none

def parent (path : Path) : Path := { path with parts := dropVoid path.parts.dropLast }

/-- The stem and the extension of a file name: what is before and after its last dot, unless that
dot is missing or comes first. -/
def stemAndExtension (name : List Char) : List Char × Option (List Char) :=
  let extension := (name.reverse.takeWhile (· ≠ '.')).reverse
  let stem := name.take (name.length - extension.length - 1)
  if stem = [] then (name, none) else (stem, some extension)

def append (directory name : List Char) : List Char :=
  match directory.getLast? with
  | none => name
  | some c => if c = '/' then directory ++ name else directory ++ '/' :: name

/-- The text of a path with its file name replaced.  A path without a file name is taken for a
directory. -/
def withFileName (text name : List Char) : List Char :=
  let path := ofText text
  match path.fileName? with
  | some _ => append path.parent.text name
  | none => append text name

end Path

end InfoScreen
