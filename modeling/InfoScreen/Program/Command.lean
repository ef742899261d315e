import InfoScreen.Config
import InfoScreen.Font
import InfoScreen.Program.HexAddress
import InfoScreen.Program.Options
import InfoScreen.Table.Format

/-!
# Commands

The program has three commands: `schedule` compiles a screen into tables, `boot` converts a boot
program and `font` dumps a font.  Options that are not a command's own come before its name or
among its words.
-/

namespace InfoScreen.Program

open Text

inductive Command where
  /-- Layout file, output path, table format, and the settings given on the command line. -/
  | schedule (layout : Option String) (output : String) (format : TableFormat)
      (changes : List Config.Change)
  | boot (hexFile output : String)
  | font (path : String) (output : Option String) (glyphs : Nat) (preview : Bool)

inductive Invocation where
  | version
  | help
  | refused
  | command (command : Command)

def readInteger? (text : String) : Option Int :=
  match text.toList with
  | '+' :: digits => (readDecimal? digits).map Int.ofNat
  | '-' :: digits => (readDecimal? digits).map fun n ↦ -(n : Int)
  | digits => (readDecimal? digits).map Int.ofNat

/-- A sixteen-bit number; a zero may have a minus sign. -/
def readUInt16? (text : String) : Option UInt16 :=
  match readInteger? text with
  | some n => if 0 ≤ n ∧ n < UInt16.size then some (UInt16.ofNat n.toNat) else none
  | none => none

/-- A 64-bit number without a minus sign. -/
def readCount? (text : String) : Option Nat :=
  let digits :=
    match text.toList with
    | '+' :: digits => digits
    | digits => digits
  match readDecimal? digits with
  | some n => if n < UInt64.size then some n else none
  | none => none

def readFormat? (text : String) : Option TableFormat :=
  if text = "sv" then some .systemVerilog else if text = "json" then some .json else none

def readAddress? (text : String) : Option UInt32 := (readAddress text.toList).toOption

def isPath (text : String) : Bool := text ≠ ""

/-- More log output; every command has this option. -/
def verbose : OptionSpec := { name := "verbose", letter := some 'v', repeatable := true }

def outputOption : OptionSpec := { name := "output", letter := some 'o', value := some isPath }

def scheduleGrammar : Grammar where
  operands := 0
  options := [
    verbose, outputOption,
    { name := "config", letter := some 'c', value := some isPath },
    { name := "format", value := some fun v ↦ (readFormat? v).isSome },
    { name := "rows", value := some fun v ↦ (readUInt16? v).isSome },
    { name := "first-row", value := some fun v ↦ (readUInt16? v).isSome },
    { name := "rows-per-bank", value := some fun v ↦ (readUInt16? v).isSome },
    { name := "start-address", value := some fun v ↦ (readAddress? v).isSome }]

def bootGrammar : Grammar where
  operands := 1
  options := [verbose, outputOption]

def fontGrammar : Grammar where
  operands := 1
  options := [
    verbose, outputOption,
    { name := "glyphs", value := some fun v ↦ (readCount? v).isSome },
    { name := "preview" }]

/-- The settings of a layout that options replace. -/
structure Overrides where
  rows : Option UInt16 := none
  firstRow : Option UInt16 := none
  rowsPerBank : Option UInt16 := none
  startAddress : Option UInt32 := none

def Overrides.changes (overrides : Overrides) : List Config.Change :=
  (overrides.rows.map .rowCount).toList ++ (overrides.firstRow.map .firstRow).toList ++
    (overrides.rowsPerBank.map .rowsPerBank).toList ++
    (overrides.startAddress.map .startAddress).toList

namespace Found

def get? {α : Type} (found : Found) (name : String) (read : String → Option α) : Option α :=
  (found.value? name).bind read

def schedule (found : Found) : Command :=
  let overrides : Overrides := {
    rows := found.get? "rows" readUInt16?
    firstRow := found.get? "first-row" readUInt16?
    rowsPerBank := found.get? "rows-per-bank" readUInt16?
    startAddress := found.get? "start-address" readAddress? }
  .schedule (found.value? "config") ((found.value? "output").getD "cpu_ifo_auto_generated.sv")
    ((found.get? "format" readFormat?).getD .systemVerilog) overrides.changes

/-- Both the file and the output path are needed. -/
def boot? (found : Found) : Option Command := do
  some (.boot (← found.operands.head?) (← found.value? "output"))

def font? (found : Found) : Option Command := do
  some (.font (← found.operands.head?) (found.value? "output")
    ((found.get? "glyphs" readCount?).getD defaultGlyphs) (found.value? "preview").isSome)

end Found

def readCommand (grammar : Grammar) (command : Found → Option Command) (words : List String) :
    Invocation :=
  match grammar.read {} words with
  | .error .help => .help
  | .error .refused => .refused
  | .ok found =>
    match command found with
    | some command => .command command
    | none => .refused

def dispatch (name : String) (words : List String) : Invocation :=
  if name = "schedule" then readCommand scheduleGrammar (fun found ↦ some found.schedule) words
  else if name = "boot" then readCommand bootGrammar Found.boot? words
  else if name = "font" then readCommand fontGrammar Found.font? words
  else if name = "help" then
    match words with
    | [] => .help
    | [topic] => if topic ∈ ["schedule", "boot", "font", "help"] then .help else .refused
    | _ => .refused
  else .refused

/-- Reads letters before the command name; `none` if there is nothing to do about them. -/
def leadingLetters : List Char → Option Invocation
  | [] => none
  | 'v' :: rest => leadingLetters rest
  | 'V' :: _ => some .version
  | 'h' :: _ => some .help
  | _ => some .refused

def Invocation.ofWords : List String → Invocation
  | [] => .refused
  | word :: rest =>
    if word = "--verbose" then ofWords rest
    else if word = "--version" then .version
    else if word = "--help" then .help
    else
      match word.toList with
      | '-' :: '-' :: _ => .refused
      | '-' :: c :: letters =>
        match leadingLetters (c :: letters) with
        | some invocation => invocation
        | none => ofWords rest
      | _ => dispatch word rest

end InfoScreen.Program
