import InfoScreen.Config

/-!
# Caption layouts

A layout spreads captions over the cells they cover, one character to a cell.  A caption is
accepted if it is ASCII, stays on its row and covers no cell that is covered already; the first
caption with a defect decides the error.
-/

namespace InfoScreen

structure LiteralCell where
  cell : Cell
  byte : UInt8
  deriving DecidableEq

/-- The characters of a caption at their cells, from left to right. -/
def Caption.cells (caption : Caption) : List LiteralCell :=
  caption.text.toList.zipIdx.map fun (c, i) ↦
    ⟨⟨caption.row.toNat, caption.col.toNat + i⟩, c.toUInt8⟩

/-- The literal cells of some captions, in caption order. -/
structure Layout where
  cells : List LiteralCell := []
  deriving DecidableEq

namespace Layout

/-- Whether a caption character sits on a cell. -/
def covers (layout : Layout) (cell : Cell) : Bool := layout.cells.any fun l ↦ l.cell = cell

def columnsOn (layout : Layout) (row : Nat) : List Nat :=
  (layout.cells.filter fun l ↦ l.cell.row = row).map fun l ↦ l.cell.col

/-- Adds a caption.  A caption may be empty, but even then it starts on the grid. -/
def add (layout : Layout) (caption : Caption) : Outcome Layout :=
  match caption.text.toList.find? fun c ↦ 128 ≤ c.toNat with
  | some c => refuse (.nonAsciiCaption caption.text c)
  | none =>
    if gridColumns ≤ caption.col.toNat ∨ gridColumns < caption.col.toNat + caption.text.length then
      refuse (.captionOverflow caption.text caption.row caption.col)
    else
      let taken := layout.columnsOn caption.row.toNat
      match caption.cells.find? fun l ↦ l.cell.col ∈ taken with
      | some l => refuse (.captionOverlap l.cell.row l.cell.col)
      | none => pure ⟨layout.cells ++ caption.cells⟩

def ofCaptions (captions : List Caption) : Outcome Layout := captions.foldlM add {}

end Layout

end InfoScreen
