import InfoScreen.Action
import InfoScreen.Failure

/-!
# Configurations

A configuration says which screen rows show memory, how the bytes of a row are laid out, how the
rows are split over banks and how wide the fields of a table entry are.  The default shows sixteen
bytes a row on rows nine to sixteen, after ten entries that are written by hand.
-/

namespace InfoScreen

/-- Columns of one row of the memory dump.  Byte `k` has its high nibble at its byte column and its
low nibble one column later.  The first byte is read at `readColumn`, every other byte where the
byte before it shows its low nibble. -/
structure Pattern where
  readColumn : UInt16 := 2
  byteColumns : List UInt16 := [4, 6, 8, 10, 13, 15, 17, 19, 23, 25, 27, 29, 32, 34, 36, 38]
  /-- Columns of the high and the low nibble of the row's address label. -/
  labelColumns : UInt16 × UInt16 := (0, 1)
  deriving DecidableEq

/-- Shape of a table entry. -/
structure Encoding where
  tableName : String := "show_info_rom"
  /-- Width of the video address field. -/
  addressBits : UInt8 := 10
  /-- Width of the field for prefetch and display offsets. -/
  diffBits : UInt8 := 8
  /-- Entries that one physical bank has room for. -/
  romDepth : Option UInt64 := none
  deriving DecidableEq

/-- Fixed text that starts at a cell and runs to the right. -/
structure Caption where
  text : String
  row : UInt16
  col : UInt16
  deriving DecidableEq

structure Config where
  /-- Screen row of the first scheduled row. -/
  firstRow : UInt16 := 9
  rowCount : UInt16 := 8
  /-- Rows after which a bank is sealed; without it all rows share one bank. -/
  rowsPerBank : Option UInt16 := none
  /-- Offset of the first displayed byte. -/
  startAddress : UInt32 := 0
  /-- Index of the first generated entry of bank 0. -/
  firstIndex : UInt64 := 10
  /-- Whether each row's address is painted in the label columns. -/
  addressLabels : Bool := false
  pattern : Pattern := {}
  encoding : Encoding := {}
  captions : List Caption := []
  deriving DecidableEq

namespace Pattern

def bytesPerRow (pattern : Pattern) : Nat := pattern.byteColumns.length

/-- The column in which byte `k` is read. -/
def readColumnOf (pattern : Pattern) (k : Nat) : Outcome Nat :=
  match k with
  | 0 => pure pattern.readColumn.toNat
  | k + 1 =>
    match pattern.byteColumns[k]? with
    | none => halt (.indexPastEnd pattern.byteColumns.length k)
    | some col => if UInt16.size ≤ col.toNat + 1 then halt .sumOverflow else pure (col.toNat + 1)

end Pattern

namespace Encoding

/-- Whether a value can be held in `bits` bits.  A field of 64 bits or more holds every value. -/
def fits (value : Nat) (bits : UInt8) : Bool := 64 ≤ bits.toNat || value < 1 <<< bits.toNat

def checkAddress (encoding : Encoding) (address : Nat) : Outcome Unit :=
  if fits address encoding.addressBits then pure ()
  else refuse (.addressOverflow address encoding.addressBits)

def checkOffset (encoding : Encoding) (offset : UInt32) : Outcome Unit :=
  if fits offset.toNat encoding.diffBits then pure ()
  else refuse (.offsetOverflow offset encoding.diffBits)

def diffDigits (encoding : Encoding) : Nat := (encoding.diffBits.toNat + 3) / 4

end Encoding

namespace Config

def bankCount (config : Config) : Nat :=
  match config.rowsPerBank with
  | none => 1
  | some rows =>
    if rows = 0 then 1 else (config.rowCount.toNat + rows.toNat - 1) / rows.toNat

/-- The bank that owns a screen row.  Rows outside the scheduled block go to the nearest bank, so
there must be a last bank whenever the rows are split. -/
def bankOfRow (config : Config) (row : Nat) : Outcome Nat :=
  match config.rowsPerBank with
  | none => pure 0
  | some rows =>
    if rows = 0 then pure 0
    else if config.bankCount = 0 then halt .differenceBelowZero
    else pure (min ((row - config.firstRow.toNat) / rows.toNat) (config.bankCount - 1))

/-- The row after the last scheduled row; row numbers end at the largest sixteen-bit number. -/
def endRow (config : Config) : Nat :=
  min (config.firstRow.toNat + config.rowCount.toNat) (UInt16.size - 1)

def scheduledRows (config : Config) : List Nat :=
  List.range' config.firstRow.toNat (config.endRow - config.firstRow.toNat)

/-- Offset of the last byte that the schedule displays. -/
def lastOffset (config : Config) : Nat :=
  config.startAddress.toNat + config.pattern.bytesPerRow * config.rowCount.toNat - 1

end Config

/-- A change of one setting; captions are added to those already there. -/
inductive Config.Change where
  | rowCount (rows : UInt16)
  | firstRow (row : UInt16)
  | rowsPerBank (rows : UInt16)
  | startAddress (offset : UInt32)
  | firstIndex (index : UInt64)
  | addressLabels (enabled : Bool)
  | pattern (pattern : Pattern)
  | encoding (encoding : Encoding)
  | captions (captions : List Caption)

def Config.change (config : Config) : Config.Change → Config
  | .rowCount rows => { config with rowCount := rows }
  | .firstRow row => { config with firstRow := row }
  | .rowsPerBank rows => { config with rowsPerBank := some rows }
  | .startAddress offset => { config with startAddress := offset }
  | .firstIndex index => { config with firstIndex := index }
  | .addressLabels enabled => { config with addressLabels := enabled }
  | .pattern pattern => { config with pattern := pattern }
  | .encoding encoding => { config with encoding := encoding }
  | .captions captions => { config with captions := config.captions ++ captions }

end InfoScreen
