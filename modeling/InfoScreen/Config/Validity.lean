import InfoScreen.Config

/-!
# Valid configurations

`Config.check` looks at everything that does not depend on captions, in a fixed order, and refuses
a configuration for the first thing that is wrong with it: the row range, the columns of the
pattern from left to right, the label columns, the field widths, and last the largest address and
the largest offset that the schedule can produce.  Columns are sixteen-bit numbers, and a sum of
columns that leaves them is a fault.
-/

namespace InfoScreen

/-- Between two byte columns there must be room for the low nibble of the first byte. -/
def checkSpacing : List UInt16 → Outcome Unit
  | col :: next :: rest =>
    if UInt16.size ≤ col.toNat + 2 then halt .sumOverflow
    else if next.toNat < col.toNat + 2 then refuse (.invalidPattern (.crowded col next))
    else checkSpacing (next :: rest)
  | _ => pure ()

namespace Pattern

def paintsColumn (pattern : Pattern) (col : Nat) : Bool :=
  pattern.byteColumns.any fun c ↦ c.toNat == col || c.toNat + 1 == col

/-- A label column is on the grid and neither reads nor shows a byte. -/
def checkLabel (pattern : Pattern) (col : UInt16) : Outcome Unit :=
  if gridColumns ≤ col.toNat then refuse (.invalidPattern (.labelOffGrid col))
  else if col = pattern.readColumn ∨ pattern.paintsColumn col.toNat then
    refuse (.invalidPattern (.labelTaken col))
  else pure ()

def checkLabels (pattern : Pattern) : Outcome Unit :=
  let (high, low) := pattern.labelColumns
  if high = low then refuse (.invalidPattern (.equalLabels high))
  else do
    pattern.checkLabel high
    pattern.checkLabel low

/-- The read comes before the first byte, the last byte ends on the grid, and no two bytes are
closer than two columns. -/
def checkBytes (pattern : Pattern) : Outcome Unit :=
  match pattern.byteColumns.head?, pattern.byteColumns.getLast? with
  | some first, some last =>
    if first.toNat ≤ pattern.readColumn.toNat then
      refuse (.invalidPattern (.readNotFirst pattern.readColumn first))
    else if UInt16.size ≤ last.toNat + 1 then halt .sumOverflow
    else if gridColumns ≤ last.toNat + 1 then refuse (.invalidPattern (.offRow last))
    else checkSpacing pattern.byteColumns
  | _, _ => refuse (.invalidPattern .noByteColumns)

def check (pattern : Pattern) (withLabels : Bool) : Outcome Unit := do
  pattern.checkBytes
  if withLabels then pattern.checkLabels

end Pattern

/-- A field is between one and thirty-two bits wide. -/
def checkWidth (bits : UInt8) : Outcome Unit :=
  if bits.toNat = 0 ∨ 32 < bits.toNat then refuse (.invalidWidth bits) else pure ()

def Encoding.checkWidths (encoding : Encoding) : Outcome Unit := do
  checkWidth encoding.addressBits
  checkWidth encoding.diffBits

namespace Config

/-- There is a row, no bank is empty, and the row after the last one has a number. -/
def checkRows (config : Config) : Outcome Unit :=
  if config.rowCount = 0 then refuse .noRows
  else if config.rowsPerBank = some 0 then refuse .emptyBank
  else if UInt16.size ≤ config.firstRow.toNat + config.rowCount.toNat then
    refuse (.rowRangeOverflow config.firstRow config.rowCount)
  else pure ()

def lastAddress (config : Config) : Nat :=
  (config.firstRow.toNat + config.rowCount.toNat) * gridColumns - 1

/-- The last displayed byte has a 32-bit offset that fits its field. -/
def checkLastOffset (config : Config) : Outcome Unit :=
  if UInt32.size ≤ config.lastOffset then
    refuse (.offsetOverflow (UInt32.ofNat (UInt32.size - 1)) 32)
  else config.encoding.checkOffset (UInt32.ofNat config.lastOffset)

/-- Everything but the captions. -/
def check (config : Config) : Outcome Unit := do
  config.checkRows
  config.pattern.check config.addressLabels
  config.encoding.checkWidths
  config.encoding.checkAddress config.lastAddress
  config.checkLastOffset

end Config

end InfoScreen
