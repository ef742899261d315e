import InfoScreen.Text.Quoted

/-!
# Failures

A computation fails in one of two ways.  A configuration, or a schedule that breaks the memory
protocol, is refused for a reason (`CompileError`).  A computation that leaves its machine word or
runs past the end of a list stops with a `Fault`.  Each reason has one message.
-/

namespace InfoScreen

open Text

/-- A computation left the range of its word or the end of its list, or broke a table's shape. -/
inductive Fault where
  | sumOverflow
  | differenceBelowZero
  | zeroDivisor
  | indexPastEnd (length index : Nat)
  /-- The slot both reads a byte and shows an address, but an entry has one field for the two. -/
  | secondaryTwice (slot : Nat)
  deriving DecidableEq

def Fault.message : Fault → String
  | sumOverflow => "attempt to add with overflow"
  | differenceBelowZero => "attempt to subtract with overflow"
  | zeroDivisor => "attempt to calculate the remainder with a divisor of zero"
  | indexPastEnd length index =>
    "index out of bounds: the len is " ++ decimal length ++ " but the index is " ++ decimal index
  | secondaryTwice slot => "slot " ++ decimal slot ++ " needs the secondary field twice"

inductive PatternFlaw where
  | noByteColumns
  | readNotFirst (readColumn firstColumn : UInt16)
  | offRow (column : UInt16)
  | crowded (column next : UInt16)
  | equalLabels (column : UInt16)
  | labelOffGrid (column : UInt16)
  | labelTaken (column : UInt16)
  deriving DecidableEq

def PatternFlaw.message : PatternFlaw → String
  | noByteColumns => "no byte columns"
  | readNotFirst readColumn firstColumn =>
    "read column " ++ decimal readColumn.toNat ++ " must come before the first byte column " ++
      decimal firstColumn.toNat
  | offRow column => "low nibble of column " ++ decimal column.toNat ++ " falls off the row"
  | crowded column next =>
    "byte columns " ++ decimal column.toNat ++ " and " ++ decimal next.toNat ++
      " overlap; the next high nibble needs a slot after the read"
  | equalLabels column => "label columns are both " ++ decimal column.toNat
  | labelOffGrid column => "label column " ++ decimal column.toNat ++ " is off the grid"
  | labelTaken column => "label column " ++ decimal column.toNat ++ " is already scheduled"

/-- How a step breaks the protocol of the memory port. -/
inductive Violation where
  | stillUnconsumed (offset : UInt32) (readSlot : Nat)
  | nothingInFlight (offset : UInt32)
  | otherInFlight (offset inFlight : UInt32)
  | notAvailable (readSlot : Nat)
  | stillInFlight (readSlot : Nat)
  deriving DecidableEq

def Violation.message : Violation → String
  | stillUnconsumed offset readSlot =>
    "read of " ++ markedHex offset.toNat ++ " issued while the byte read at slot " ++
      decimal readSlot ++ " is unconsumed"
  | nothingInFlight offset => "paint of " ++ markedHex offset.toNat ++ " with no byte in flight"
  | otherInFlight offset inFlight =>
    "paint of " ++ markedHex offset.toNat ++ " but " ++ markedHex inFlight.toNat ++ " is in flight"
  | notAvailable readSlot => "byte read at slot " ++ decimal readSlot ++ " is not available yet"
  | stillInFlight readSlot => "byte read at slot " ++ decimal readSlot ++ " is still in flight"

/-- Why a configuration has no tables. -/
inductive CompileError where
  | noRows
  | emptyBank
  | rowRangeOverflow (firstRow rowCount : UInt16)
  | captionOverflow (text : String) (row col : UInt16)
  | nonAsciiCaption (text : String) (char : Char)
  | captionOverlap (row col : Nat)
  | invalidPattern (flaw : PatternFlaw)
  | invalidWidth (bits : UInt8)
  | addressOverflow (address : Nat) (bits : UInt8)
  | offsetOverflow (offset : UInt32) (bits : UInt8)
  | tableOverflow (bank entries depth : Nat)
  | noSuchBank (bank banks : Nat)
  | pipeline (slot : Nat) (violation : Violation)
  deriving DecidableEq

def CompileError.message : CompileError → String
  | noRows => "row count must be at least 1"
  | emptyBank => "rows per bank must be at least 1"
  | rowRangeOverflow firstRow rowCount =>
    decimal rowCount.toNat ++ " rows from row " ++ decimal firstRow.toNat ++
      " run past the last screen row"
  | captionOverflow text row col =>
    "caption " ++ quoted text ++ " at row " ++ decimal row.toNat ++ ", column " ++
      decimal col.toNat ++ " runs past column 59"
  | nonAsciiCaption text char =>
    "caption " ++ quoted text ++ " contains non-ASCII character " ++ quotedChar char
  | captionOverlap row col =>
    "captions overlap at row " ++ decimal row ++ ", column " ++ decimal col
  | invalidPattern flaw => "invalid row pattern: " ++ flaw.message
  | invalidWidth bits => "field width of " ++ decimal bits.toNat ++ " bits is out of range"
  | addressOverflow address bits =>
    "cell address " ++ decimal address ++ " does not fit in " ++ decimal bits.toNat ++ " bits"
  | offsetOverflow offset bits =>
    "offset " ++ markedHex offset.toNat ++ " does not fit in the " ++ decimal bits.toNat ++
      "-bit secondary field"
  | tableOverflow bank entries depth =>
    "bank " ++ decimal bank ++ " holds " ++ decimal entries ++
      " entries but the table depth is " ++ decimal depth
  | noSuchBank bank banks =>
    "no bank " ++ decimal bank ++ "; the table has " ++ decimal banks
  | pipeline slot violation =>
    "pipeline violation at slot " ++ decimal slot ++ ": " ++ violation.message

/-- A refusal with its reason, or a fault. -/
inductive Failure where
  | refusal (error : CompileError)
  | fault (fault : Fault)
  deriving DecidableEq

/-- A value, or the failure that prevented it. -/
abbrev Outcome (α : Type) := Except Failure α

def refuse {α : Type} (error : CompileError) : Outcome α := .error (.refusal error)

def halt {α : Type} (fault : Fault) : Outcome α := .error (.fault fault)

end InfoScreen
