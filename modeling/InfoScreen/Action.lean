import InfoScreen.Cell

/-!
# Actions

In each slot the display hardware may paint the slot's cell and may request one byte of memory.
An action says what one slot does; the slot that does neither is idle.
-/

namespace InfoScreen

/-- One half of a byte, shown as one hexadecimal digit. -/
inductive Nibble where
  | high
  | low
  deriving DecidableEq

def Nibble.of (nibble : Nibble) (byte : UInt8) : UInt8 :=
  match nibble with
  | .high => byte >>> 4
  | .low => byte &&& 0x0F

/-- A display write. -/
inductive Paint where
  /-- A whole caption character. -/
  | literal (byte : UInt8)
  /-- A nibble of the byte requested in the slot `readSlot`. -/
  | fetched (nibble : Nibble) (readSlot : Nat)
  /-- A nibble of the display address `offset`, which the hardware adds to its base address. -/
  | cursorAddress (nibble : Nibble) (offset : UInt32)
  deriving DecidableEq

/-- Where a painted value comes from. -/
inductive Source where
  | literal
  | fetched
  | cursor
  deriving DecidableEq

namespace Paint

def source : Paint → Source
  | literal _ => .literal
  | fetched _ _ => .fetched
  | cursorAddress _ _ => .cursor

def nibble? : Paint → Option Nibble
  | literal _ => none
  | fetched nibble _ => some nibble
  | cursorAddress nibble _ => some nibble

end Paint

structure Action where
  slot : Nat
  cell : Cell
  bank : Nat
  paint : Option Paint
  /-- Offset of the byte requested in this slot. -/
  read : Option UInt32
  deriving DecidableEq

inductive ActionKind where
  | idle
  | memoryRead
  | paintByte
  | paintAndRead
  deriving DecidableEq

namespace Action

def idle (cell : Cell) (bank : Nat) : Action := ⟨cell.address, cell, bank, none, none⟩

def kind (action : Action) : ActionKind :=
  match action.paint, action.read with
  | none, none => .idle
  | none, some _ => .memoryRead
  | some _, none => .paintByte
  | some _, some _ => .paintAndRead

def isIdle (action : Action) : Bool := action.paint.isNone && action.read.isNone

/-- The cell that the slot writes, if it writes one. -/
def target? (action : Action) : Option Cell := action.paint.map fun _ ↦ action.cell

end Action

end InfoScreen
