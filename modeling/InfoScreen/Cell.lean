import InfoScreen.Text.Digits

/-!
# The text grid

The screen shows characters on a grid of sixty columns.  A cell has a row and a column; its address
counts cells row by row, and doubles as the number of the slot in which the cell may be painted.
-/

namespace InfoScreen

/-- Character columns per display row. -/
def gridColumns : Nat := 60

/-- One character position. -/
structure Cell where
  row : Nat
  col : Nat
  deriving DecidableEq

namespace Cell

def ofGrid? (row col : Nat) : Option Cell := if col < gridColumns then some ⟨row, col⟩ else none

def address (cell : Cell) : Nat := cell.row * gridColumns + cell.col

/-- The cell of a slot.  Row numbers have sixteen bits, so far slots wrap to the first rows. -/
def ofSlot (slot : Nat) : Cell := ⟨slot / gridColumns % UInt16.size, slot % gridColumns⟩

/-- Row-major order. -/
def order (a b : Cell) : Ordering := (compare a.row b.row).then (compare a.col b.col)

def text (cell : Cell) : String :=
  "(" ++ Text.decimal cell.row ++ ", " ++ Text.decimal cell.col ++ ")"

end Cell

end InfoScreen
