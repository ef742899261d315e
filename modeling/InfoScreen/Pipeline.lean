import InfoScreen.Failure

/-!
# The memory port

The memory port holds one byte at a time.  A byte is requested, its high nibble may be shown from
the next slot on, and its low nibble, which releases the port, from the slot after that.  Every
step that breaks this protocol is refused and changes nothing.
-/

namespace InfoScreen

/-- A requested byte that has not been released. -/
structure Flight where
  slot : Nat
  offset : UInt32
  deriving DecidableEq

structure Pipeline where
  inFlight : Option Flight := none
  deriving DecidableEq

/-- Slots from the request of a byte to the first slot that can show its high nibble. -/
def highLatency : Nat := 1

/-- Slots from the request of a byte to the first slot that can show its low nibble. -/
def lowLatency : Nat := 2

def violate {α : Type} (slot : Nat) (violation : Violation) : Outcome α :=
  refuse (.pipeline slot violation)

namespace Pipeline

/-- Requests the byte at an offset.  The port is answered as the request leaves it. -/
def issue (port : Pipeline) (slot : Nat) (offset : UInt32) : Outcome Unit × Pipeline :=
  match port.inFlight with
  | some flight => (violate slot (.stillUnconsumed offset flight.slot), port)
  | none => (pure (), { port with inFlight := some ⟨slot, offset⟩ })

/-- The byte in flight, if it is the one at `offset` and was requested `latency` slots ago or
earlier.  Slots are 64-bit numbers, and so is the slot from which the byte is available. -/
def fetched (port : Pipeline) (slot : Nat) (offset : UInt32) (latency : Nat) : Outcome Flight :=
  match port.inFlight with
  | none => violate slot (.nothingInFlight offset)
  | some flight =>
    if flight.offset ≠ offset then violate slot (.otherInFlight offset flight.offset)
    else if UInt64.size ≤ flight.slot + latency then halt .sumOverflow
    else if slot < flight.slot + latency then violate slot (.notAvailable flight.slot)
    else pure flight

/-- Shows the high nibble of the byte in flight; answers the slot of its request. -/
def high (port : Pipeline) (slot : Nat) (offset : UInt32) : Outcome Nat :=
  (port.fetched slot offset highLatency).map Flight.slot

/-- Shows the low nibble of the byte in flight and releases the port; answers the slot of the
request, and the port as this leaves it. -/
def low (port : Pipeline) (slot : Nat) (offset : UInt32) : Outcome Nat × Pipeline :=
  match port.fetched slot offset lowLatency with
  | .error failure => (.error failure, port)
  | .ok flight => (pure flight.slot, { port with inFlight := none })

def drain (port : Pipeline) (slot : Nat) : Outcome Unit :=
  match port.inFlight with
  | none => pure ()
  | some flight => violate slot (.stillInFlight flight.slot)

end Pipeline

/-- One step of the protocol, with the slot in which it is tried. -/
inductive Pipeline.Step where
  | issue (slot : Nat) (offset : UInt32)
  | high (slot : Nat) (offset : UInt32)
  | low (slot : Nat) (offset : UInt32)
  | drain (slot : Nat)
  deriving DecidableEq

/-- Tries a step.  The answer is the slot of the shown byte's request, where a byte is shown. -/
def Pipeline.step (port : Pipeline) : Pipeline.Step → Outcome (Option Nat) × Pipeline
  | .issue slot offset =>
    let (issued, next) := port.issue slot offset
    (issued.map fun _ ↦ none, next)
  | .high slot offset => ((port.high slot offset).map some, port)
  | .low slot offset =>
    let (readSlot, next) := port.low slot offset
    (readSlot.map some, next)
  | .drain slot => ((port.drain slot).map fun _ ↦ none, port)

end InfoScreen
