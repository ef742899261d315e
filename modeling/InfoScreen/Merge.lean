import Std.Data.TreeMap
import InfoScreen.Layout

/-!
# Merging captions into a schedule

Captions and scheduled actions meet slot by slot.  A caption character replaces whatever its slot
would have painted and keeps the slot's read; idle slots disappear.
-/

namespace InfoScreen

abbrev SlotMap := Std.TreeMap Nat Action

namespace SlotMap

/-- Adds an action unless it is idle; of two actions in one slot the later one stays. -/
def add (slots : SlotMap) (action : Action) : SlotMap :=
  if action.isIdle then slots else slots.insert action.slot action

/-- Puts a character into the slot of its cell.  A slot that held no action so far belongs to the
bank of the cell's row. -/
def write (config : Config) (slots : SlotMap) (literal : LiteralCell) : Outcome SlotMap := do
  let bank ← config.bankOfRow literal.cell.row
  let action := slots.getD literal.cell.address (Action.idle literal.cell bank)
  pure (slots.insert literal.cell.address { action with paint := some (.literal literal.byte) })

end SlotMap

/-- The scheduled actions and the characters of a layout together, in slot order. -/
def merge (scheduled : List Action) (layout : Layout) (config : Config) :
    Outcome (List Action) := do
  let slots ← layout.cells.foldlM (SlotMap.write config) (scheduled.foldl SlotMap.add ∅)
  pure slots.values

end InfoScreen
