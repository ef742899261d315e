import InfoScreen.Config.Validity
import InfoScreen.Merge
import InfoScreen.Schedule
import InfoScreen.Table.Format

/-!
# Compiling a screen

A screen is a configuration that has been checked together with the layout of its captions.  It is
scheduled, its captions are merged in, and the merged actions are split into the entries of its
banks.
-/

namespace InfoScreen

/-- A checked configuration, ready to compile. -/
structure Screen where
  config : Config
  layout : Layout

namespace Screen

/-- Checks a configuration, then its captions, then that every caption cell is addressable. -/
def ofConfig (config : Config) : Outcome Screen := do
  config.check
  let layout ← Layout.ofCaptions config.captions
  layout.cells.forM fun literal ↦ config.encoding.checkAddress literal.cell.address
  pure ⟨config, layout⟩

/-- One action for each scheduled slot, before captions are merged in. -/
def schedule (screen : Screen) : Outcome Schedule := Schedule.build screen.config screen.layout

/-- All actions that do something, in slot order. -/
def actions (screen : Screen) : Outcome (List Action) := do
  let schedule ← screen.schedule
  merge schedule.actions screen.layout screen.config

/-- Checks that the entries of a bank, counted from index zero, fit the table depth. -/
def checkDepth (depth : Nat) (bank : Bank) : Outcome Unit :=
  match bank.entries.back? with
  | none => pure ()
  | some last =>
    if UInt64.size ≤ last.index + 1 then halt .sumOverflow
    else if depth < last.index + 1 then
      refuse (.tableOverflow bank.number (last.index + 1) depth)
    else pure ()

def compile (screen : Screen) : Outcome Tables := do
  let schedule ← screen.schedule
  let actions ← merge schedule.actions screen.layout screen.config
  let banks ← Bank.split actions screen.config.bankCount screen.config.firstIndex.toNat
  match screen.config.encoding.romDepth with
  | none => pure ()
  | some depth => banks.forM (checkDepth depth.toNat)
  pure ⟨banks, screen.config.encoding, schedule.finalAddress⟩

end Screen

end InfoScreen
