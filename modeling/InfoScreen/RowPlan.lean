import InfoScreen.Config

/-!
# Row plans

Every scheduled row follows one plan, which gives each column of the grid a role.  A pattern claims
columns for its roles in a fixed order, and a later claim on a column replaces an earlier one.
-/

namespace InfoScreen

/-- What a column of a scheduled row is for. -/
inductive Role where
  | idle
  /-- Requests the first byte of the row. -/
  | read
  | high (byte : Nat)
  /-- Shows the low nibble of `byte` and requests the byte `next`; the last byte of the row has
  none. -/
  | low (byte : Nat) (next : Option Nat)
  | label (nibble : Nibble)
  deriving DecidableEq

/-- The byte that a role reads or shows first. -/
def Role.byte? : Role → Option Nat
  | idle => none
  | read => some 0
  | high byte => some byte
  | low byte _ => some byte
  | label _ => none

/-- A column with the role claimed for it. -/
abbrev Claim := Nat × Role

namespace Pattern

/-- The two columns of byte `k`. -/
def byteClaims (pattern : Pattern) (k : Nat) (col : UInt16) : List Claim :=
  let next := if k + 1 < pattern.bytesPerRow then some (k + 1) else none
  [(col.toNat, .high k), (col.toNat + 1, .low k next)]

/-- The claims of a pattern, in the order in which they are made. -/
def claims (pattern : Pattern) (withLabels : Bool) : List Claim :=
  [(pattern.readColumn.toNat, .read)] ++
    (pattern.byteColumns.zipIdx.flatMap fun (col, k) ↦ pattern.byteClaims k col) ++
    if withLabels then
      [(pattern.labelColumns.1.toNat, .label .high), (pattern.labelColumns.2.toNat, .label .low)]
    else []

end Pattern

/-- The role of a column under some claims: that of the last claim on it. -/
def roleOf (claims : List Claim) (col : Nat) : Role :=
  match claims.reverse.find? fun claim ↦ claim.1 = col with
  | some claim => claim.2
  | none => .idle

/-- The roles of all columns of the grid.  A plan has a last byte, and claims off the grid are
faults. -/
def Pattern.rowPlan (pattern : Pattern) (withLabels : Bool) : Outcome (List Role) :=
  if pattern.byteColumns = [] then halt .differenceBelowZero
  else
    let claims := pattern.claims withLabels
    match claims.find? fun claim ↦ gridColumns ≤ claim.1 with
    | some claim => halt (.indexPastEnd gridColumns claim.1)
    | none => pure ((List.range gridColumns).map (roleOf claims))

end InfoScreen
