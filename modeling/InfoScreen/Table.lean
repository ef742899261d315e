import InfoScreen.Action
import InfoScreen.Failure

/-!
# Lookup tables

A table entry is one action in the fields that the display hardware reads.  A bank is the list of
entries of one physical memory.
-/

namespace InfoScreen

/-- Hardware meaning of the value field. -/
inductive ValueType where
  | fetchedHigh
  | fetchedLow
  | literal
  | addressHigh
  | addressLow
  deriving DecidableEq

def ValueType.code : ValueType → Nat
  | fetchedHigh => 0
  | fetchedLow => 1
  | literal => 2
  | addressHigh => 3
  | addressLow => 4

def ValueType.name : ValueType → String
  | fetchedHigh => "fetched_high"
  | fetchedLow => "fetched_low"
  | literal => "literal"
  | addressHigh => "address_high"
  | addressLow => "address_low"

structure Entry where
  index : Nat
  /-- Video address; zero in slots that only read. -/
  address : Nat
  valueType : ValueType
  value : UInt8
  /-- Offset of the requested byte in slots that read, display offset where an address is shown. -/
  secondary : UInt32
  displayWrite : Bool
  memoryRead : Bool
  deriving DecidableEq

/-- The fields that a paint decides: value type, value and display offset. -/
def Paint.fields : Option Paint → ValueType × UInt8 × Option UInt32
  | none => (.fetchedHigh, 0, none)
  | some (.fetched .high _) => (.fetchedHigh, 0, none)
  | some (.fetched .low _) => (.fetchedLow, 0, none)
  | some (.literal byte) => (.literal, byte, none)
  | some (.cursorAddress .high offset) => (.addressHigh, 0, some offset)
  | some (.cursorAddress .low offset) => (.addressLow, 0, some offset)

/-- The entry of an action.  An action that reads while it shows an address would need the
secondary field for two offsets. -/
def Entry.encode (index : Nat) (action : Action) : Outcome Entry :=
  let (valueType, value, displayOffset) := Paint.fields action.paint
  if action.read.isSome ∧ displayOffset.isSome then halt (.secondaryTwice action.slot)
  else pure {
    index
    address := if action.paint.isSome then action.cell.address else 0
    valueType
    value
    secondary := (action.read.or displayOffset).getD 0
    displayWrite := action.paint.isSome
    memoryRead := action.read.isSome }

/-- The entries of one physical bank. -/
structure Bank where
  number : Nat
  entries : Array Entry := #[]
  deriving DecidableEq

namespace Bank

/-- Index of the next entry.  Bank 0 is numbered from `firstIndex`, every other bank from zero. -/
def nextIndex (bank : Bank) (firstIndex : Nat) : Nat :=
  (if bank.number = 0 then firstIndex else 0) + bank.entries.size

/-- The entry of an action that comes next in a bank.  Indices are 64-bit numbers. -/
def nextEntry (bank : Bank) (firstIndex : Nat) (action : Action) : Outcome Entry :=
  if UInt64.size ≤ bank.nextIndex firstIndex then halt .sumOverflow
  else Entry.encode (bank.nextIndex firstIndex) action

def push (bank : Bank) (entry : Entry) : Bank := { bank with entries := bank.entries.push entry }

/-- Appends the entry of an action to the bank that the action names. -/
def route (firstIndex : Nat) (banks : Array Bank) (action : Action) : Outcome (Array Bank) :=
  match banks[action.bank]? with
  | none => halt (.indexPastEnd banks.size action.bank)
  | some bank => do
    let entry ← bank.nextEntry firstIndex action
    pure (banks.modify action.bank fun bank ↦ bank.push entry)

/-- Distributes actions over `bankCount` banks; each bank keeps their order. -/
def split (actions : List Action) (bankCount firstIndex : Nat) : Outcome (List Bank) := do
  let banks := (Array.range bankCount).map fun number ↦ { number }
  let banks ← actions.foldlM (route firstIndex) banks
  pure banks.toList

end Bank

end InfoScreen
