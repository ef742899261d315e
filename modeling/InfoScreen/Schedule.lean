import InfoScreen.Layout
import InfoScreen.Pipeline
import InfoScreen.RowPlan

/-!
# Schedules

The scheduler walks the scheduled rows slot by slot.  The plan gives the role of each slot; a byte
with a nibble under a caption is neither read nor shown, but keeps its offset.  Rows are grouped
into banks, and no byte may be in flight from one bank to the next.
-/

namespace InfoScreen

/-- What the slots of one row have in common. -/
structure RowView where
  row : Nat
  bank : Nat
  /-- Offset of the first byte of the row. -/
  start : Nat
  byteColumns : List UInt16
  /-- Columns on which a caption character sits. -/
  captioned : List Nat

namespace RowView

def covered (view : RowView) (col : Nat) : Bool := view.captioned.contains col

/-- Whether a nibble of byte `k` is under a caption. -/
def masked (view : RowView) (k : Nat) : Bool :=
  match view.byteColumns[k]? with
  | none => false
  | some col => view.covered col.toNat || view.covered (col.toNat + 1)

/-- Offset of byte `k` of the row, as a 32-bit number. -/
def offset (view : RowView) (k : Nat) : UInt32 := UInt32.ofNat (view.start + k)

end RowView

/-- How far the schedule has come in memory. -/
structure Cursor where
  /-- Offset of the next byte. -/
  address : Nat
  port : Pipeline := {}
  deriving DecidableEq

def Cursor.request (cursor : Cursor) (slot : Nat) : Outcome (UInt32 × Cursor) := do
  let offset := UInt32.ofNat cursor.address
  let (issued, port) := cursor.port.issue slot offset
  issued
  pure (offset, { cursor with port })

namespace RowView

/-- Shows the low nibble of byte `k` and moves the cursor past it; a masked byte is only passed. -/
def passByte (view : RowView) (cursor : Cursor) (slot k : Nat) :
    Outcome (Option Paint × Cursor) :=
  if view.masked k then pure (none, { cursor with address := cursor.address + 1 })
  else do
    let (shown, port) := cursor.port.low slot (view.offset k)
    let readSlot ← shown
    pure (some (.fetched .low readSlot), { address := cursor.address + 1, port })

def requestByte (view : RowView) (cursor : Cursor) (slot k : Nat) :
    Outcome (Option UInt32 × Cursor) :=
  if view.masked k then pure (none, cursor)
  else do
    let (offset, cursor) ← cursor.request slot
    pure (some offset, cursor)

/-- The action of one slot of the row. -/
def slotAction (view : RowView) (cursor : Cursor) (col : Nat) (role : Role) :
    Outcome (Action × Cursor) :=
  let idle := Action.idle ⟨view.row, col⟩ view.bank
  match role with
  | .idle => pure (idle, cursor)
  | .label nibble =>
    if view.covered col then pure (idle, cursor)
    else pure ({ idle with paint := some (.cursorAddress nibble (view.offset 0)) }, cursor)
  | .read => do
    let (read, cursor) ← view.requestByte cursor idle.slot 0
    pure ({ idle with read }, cursor)
  | .high k =>
    if view.masked k then pure (idle, cursor)
    else do
      let readSlot ← cursor.port.high idle.slot (view.offset k)
      pure ({ idle with paint := some (.fetched .high readSlot) }, cursor)
  | .low k next => do
    let (paint, cursor) ← view.passByte cursor idle.slot k
    let (read, cursor) ←
      match next with
      | none => pure (none, cursor)
      | some n => view.requestByte cursor idle.slot n
    pure ({ idle with paint, read }, cursor)

def slotActions (view : RowView) (cursor : Cursor) (col : Nat) :
    List Role → Outcome (List Action × Cursor)
  | [] => pure ([], cursor)
  | role :: roles => do
    let (action, cursor) ← view.slotAction cursor col role
    let (actions, cursor) ← slotActions view cursor (col + 1) roles
    pure (action :: actions, cursor)

end RowView

/-- One action for each scheduled slot, and where each bank begins. -/
structure Schedule where
  actions : List Action
  /-- First slot of every bank, ascending. -/
  bankStarts : List Nat
  /-- Offset after the last row. -/
  finalAddress : Nat
  deriving DecidableEq

namespace Schedule

/-- A schedule under construction. -/
structure Progress where
  actions : Array Action := #[]
  bankStarts : Array Nat
  bank : Nat := 0
  cursor : Cursor

namespace Progress

/-- Seals the current bank before row number `index` of the schedule, if that row starts a new
bank.  With banks of no rows there is no way to tell. -/
def enterRow (progress : Progress) (rowsPerBank : Option UInt16) (index slot : Nat) :
    Outcome Progress :=
  match rowsPerBank with
  | none => pure progress
  | some rows =>
    if index = 0 then pure progress
    else if rows = 0 then halt .zeroDivisor
    else if index % rows.toNat = 0 then do
      progress.cursor.port.drain slot
      pure { progress with
        bankStarts := progress.bankStarts.push slot
        bank := progress.bank + 1 }
    else pure progress

/-- Schedules row number `index`, which is the screen row `row`. -/
def addRow (config : Config) (layout : Layout) (plan : List Role) (progress : Progress)
    (line : Nat × Nat) : Outcome Progress := do
  let (row, index) := line
  let progress ← progress.enterRow config.rowsPerBank index (row * gridColumns)
  let view : RowView :=
    { row, bank := progress.bank, start := progress.cursor.address,
      byteColumns := config.pattern.byteColumns, captioned := layout.columnsOn row }
  let (actions, cursor) ← view.slotActions progress.cursor 0 plan
  pure { progress with actions := progress.actions ++ actions.toArray, cursor }

end Progress

def build (config : Config) (layout : Layout) : Outcome Schedule := do
  let plan ← config.pattern.rowPlan config.addressLabels
  let start : Progress :=
    { bankStarts := #[config.firstRow.toNat * gridColumns]
      cursor := { address := config.startAddress.toNat } }
  let progress ← config.scheduledRows.zipIdx.foldlM (Progress.addRow config layout plan) start
  progress.cursor.port.drain (config.endRow * gridColumns)
  pure ⟨progress.actions.toList, progress.bankStarts.toList, progress.cursor.address⟩

end Schedule

end InfoScreen
