import InfoScreen.Config
import InfoScreen.Document

/-!
# Configurations as documents

Every setting of a configuration may be left out and then keeps its default; settings that do not
exist are refused.  A caption needs its text, row and column and may have other members, which do
not count.  In a notation with exact lists the two label columns are exactly two, and otherwise the
first two.
-/

namespace InfoScreen

open Document

/-- The two label columns. -/
def Pattern.labels? (exact : Bool) : Document → Option (UInt16 × UInt16)
  | .list (high :: low :: rest) => do
    let high ← high.uint16?
    let low ← low.uint16?
    if exact ∧ rest ≠ [] then none else some (high, low)
  | _ => none

def Pattern.settings (exact : Bool) : List (Setting Pattern) := [
  ⟨"read_column", fun p d ↦ d.uint16?.map fun readColumn ↦ { p with readColumn }⟩,
  ⟨"byte_columns", fun p d ↦ do
    let items ← d.list?
    let byteColumns ← items.mapM uint16?
    some { p with byteColumns }⟩,
  ⟨"label_columns", fun p d ↦ (labels? exact d).map fun labelColumns ↦ { p with labelColumns }⟩]

def Pattern.ofDocument? (exact : Bool) : Document → Option Pattern :=
  record? exact (Pattern.settings exact) {}

def Encoding.settings : List (Setting Encoding) := [
  ⟨"table_name", fun e d ↦ d.text?.map fun tableName ↦ { e with tableName }⟩,
  ⟨"address_bits", fun e d ↦ d.uint8?.map fun addressBits ↦ { e with addressBits }⟩,
  ⟨"diff_bits", fun e d ↦ d.uint8?.map fun diffBits ↦ { e with diffBits }⟩,
  ⟨"rom_depth", fun e d ↦ (d.optional? uint64?).map fun romDepth ↦ { e with romDepth }⟩]

def Encoding.ofDocument? (exact : Bool) : Document → Option Encoding :=
  record? exact Encoding.settings {}

def Caption.ofDocument? : Document → Option Caption
  | .table members => do
    let text ← (← member? members "text").text?
    let row ← (← member? members "row").uint16?
    let col ← (← member? members "col").uint16?
    some ⟨text, row, col⟩
  | _ => none

def Caption.listOfDocument? (document : Document) : Option (List Caption) := do
  let items ← document.list?
  items.mapM Caption.ofDocument?

def Config.settings (exact : Bool) : List (Setting Config) := [
  ⟨"first_row", fun c d ↦ d.uint16?.map fun firstRow ↦ { c with firstRow }⟩,
  ⟨"row_count", fun c d ↦ d.uint16?.map fun rowCount ↦ { c with rowCount }⟩,
  ⟨"rows_per_bank", fun c d ↦ (d.optional? uint16?).map fun rowsPerBank ↦ { c with rowsPerBank }⟩,
  ⟨"start_address", fun c d ↦ d.uint32?.map fun startAddress ↦ { c with startAddress }⟩,
  ⟨"first_index", fun c d ↦ d.uint64?.map fun firstIndex ↦ { c with firstIndex }⟩,
  ⟨"address_labels", fun c d ↦ d.boolean?.map fun addressLabels ↦ { c with addressLabels }⟩,
  ⟨"pattern", fun c d ↦ (Pattern.ofDocument? exact d).map fun pattern ↦ { c with pattern }⟩,
  ⟨"encoding", fun c d ↦ (Encoding.ofDocument? exact d).map fun encoding ↦ { c with encoding }⟩,
  ⟨"captions", fun c d ↦ (Caption.listOfDocument? d).map fun captions ↦ { c with captions }⟩]

def Config.ofDocument? (exact : Bool) : Document → Option Config :=
  record? exact (Config.settings exact) {}

end InfoScreen
