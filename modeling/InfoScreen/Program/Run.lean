import InfoScreen.Boot.Image
import InfoScreen.Config.Document
import InfoScreen.Document.Toml
import InfoScreen.Program.Command
import InfoScreen.Screen
import InfoScreen.Table.BankPath

/-!
# Running a command

A command sees the files on a disk and reports what it has printed and written.  Everything that a
command may be refused for is found out before the first file is written.
-/

namespace InfoScreen.Program

open Text

/-- What takes the text that is written to a path. -/
inductive Sink where
  | file
  /-- Takes everything and keeps nothing. -/
  | null
  | output
  | errors
  /-- Has no room for any text. -/
  | full
  deriving DecidableEq

/-- A disk as a command sees it: the contents of the files that can be read, and what is behind
the paths that can be opened for writing. -/
structure Disk where
  read? : String → Option ByteArray
  sink? : String → Option Sink

/-- The text of a file that can be read and is proper UTF-8. -/
def Disk.text? (disk : Disk) (path : String) : Option String :=
  (disk.read? path).bind String.fromUTF8?

structure Report where
  exitCode : Nat := 0
  output : String := ""
  errors : String := ""
  /-- Paths and contents of the files written, in order. -/
  written : List (String × String) := []

namespace Report

def fail (report : Report) (message : String) : Report :=
  { report with exitCode := 1, errors := report.errors ++ "Error: " ++ message ++ "\n" }

def crash (fault : Fault) : Report := { exitCode := 101, errors := fault.message ++ "\n" }

def refused : Report := { exitCode := 2, errors := "The command line is not understood.\n" }

def print (report : Report) (text : String) : Report :=
  { report with output := report.output ++ text }

/-- Writes a text into a sink that was found at a path, if there is room for it. -/
def write? (report : Report) (path content : String) : Sink → Option Report
  | .file => some { report with written := report.written ++ [(path, content)] }
  | .null => some report
  | .output => some (report.print content)
  | .errors => some { report with errors := report.errors ++ content }
  | .full => if content = "" then some report else none

end Report

def createdLine (path : String) (count : Nat) (unit : String) : String :=
  "Created: " ++ path ++ " (" ++ decimal count ++ " " ++ unit ++ ")\n"

/-- The settings of a layout file, or the default ones without a file. -/
def loadConfig (disk : Disk) : Option String → Except String Config
  | none => .ok {}
  | some path =>
    match disk.text? path with
    | none => .error ("Failed to read layout file " ++ path)
    | some text =>
      match (Toml.parse? text.toList).bind (Config.ofDocument? false) with
      | none => .error ("Invalid layout file " ++ path)
      | some config => .ok config

inductive WriteError where
  | notCreated
  | noSpace
  deriving DecidableEq

/-- Writes files in order, up to the first one that cannot be written. -/
def writeFiles (disk : Disk) (report : Report) :
    List (String × String) → Report × Option WriteError
  | [] => (report, none)
  | (path, content) :: rest =>
    match disk.sink? path with
    | none => (report, some .notCreated)
    | some sink =>
      match report.write? path content sink with
      | none => (report, some .noSpace)
      | some report => writeFiles disk report rest

def writeOutput (disk : Disk) (report : Report) (path content line : String) : Report :=
  match writeFiles disk report [(path, content)] with
  | (report, none) => report.print line
  | (report, some .notCreated) => report.fail ("Failed to create " ++ path)
  | (report, some .noSpace) => report.fail "No space left on device (os error 28)"

def tableFiles (tables : Tables) (output : String) (format : TableFormat) :
    List (String × String) :=
  tables.banks.map fun bank ↦
    (Table.bankPath output bank.number tables.banks.length, format.render tables.encoding bank)

def writeTables (disk : Disk) (tables : Tables) (output : String) (format : TableFormat) : Report :=
  match writeFiles disk {} (tableFiles tables output format) with
  | (report, some _) => report.fail ("Failed to write " ++ output)
  | (report, none) =>
    report.print (String.join (tables.banks.map fun bank ↦
      createdLine (Table.bankPath output bank.number tables.banks.length)
        bank.entries.size "entries"))

def runSchedule (disk : Disk) (layout : Option String) (output : String) (format : TableFormat)
    (changes : List Config.Change) : Report :=
  match loadConfig disk layout with
  | .error message => Report.fail {} message
  | .ok config =>
    match Screen.ofConfig (changes.foldl Config.change config) >>= Screen.compile with
    | .error (.refusal error) => Report.fail {} error.message
    | .error (.fault fault) => .crash fault
    | .ok tables => writeTables disk tables output format

def runBoot (disk : Disk) (hexFile output : String) : Report :=
  match disk.text? hexFile with
  | none => Report.fail {} ("Failed to read " ++ hexFile)
  | some text =>
    match Boot.Image.ofText text.toList with
    | .error _ => Report.fail {} ("Failed to convert " ++ hexFile)
    | .ok image =>
      writeOutput disk {} output image.render (createdLine output image.bytes.length "bytes")

/-- The drawings of all glyphs, each under a heading with its code and its character. -/
def previews (font : Font) : String :=
  String.join (font.glyphs.zipIdx.map fun (glyph, code) ↦
    "code: " ++ decimal code ++ " char: " ++ quotedChar (Char.ofNat (code % 256)) ++ "\n" ++
      Font.art glyph ++ "\n")

def runFont (disk : Disk) (path : String) (output : Option String) (glyphs : Nat)
    (preview : Bool) : Report :=
  match disk.read? path with
  | none => Report.fail {} ("Failed to read " ++ path)
  | some bytes =>
    let font := Font.ofBytes bytes.data.toList glyphs
    let report : Report := { errors := if preview then previews font else "" }
    match output with
    | none => report.print font.render
    | some output =>
      writeOutput disk report output font.render (createdLine output font.glyphs.length "glyphs")

def Command.run (disk : Disk) : Command → Report
  | schedule layout output format changes => runSchedule disk layout output format changes
  | boot hexFile output => runBoot disk hexFile output
  | font path output glyphs preview => runFont disk path output glyphs preview

def versionLine : String := "ifogen 0.3.0\n"

def usage : String :=
  "Usage: ifogen [-v] schedule [--config FILE] [--output FILE] [--format sv|json] [--rows N]\n" ++
  "                   [--first-row N] [--rows-per-bank N] [--start-address HEX]\n" ++
  "       ifogen [-v] boot HEXFILE --output FILE\n" ++
  "       ifogen [-v] font FILE [--output FILE] [--glyphs N] [--preview]\n"

def run (disk : Disk) (words : List String) : Report :=
  match Invocation.ofWords words with
  | .version => { output := versionLine }
  | .help => { output := usage }
  | .refused => .refused
  | .command command => command.run disk

end InfoScreen.Program
