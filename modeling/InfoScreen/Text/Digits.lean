/-!
# Numbers as text

Decimal numbers have no leading zeros.  Hexadecimal numbers come in both cases, and may be padded
with zeros on the left; padding never cuts digits off.
-/

namespace InfoScreen.Text

def decimalDigits (n : Nat) : List Char := Nat.toDigits 10 n

/-- The lower-case hexadecimal digits of a number. -/
def hexDigits (n : Nat) : List Char := Nat.toDigits 16 n

def upperHexDigits (n : Nat) : List Char := (hexDigits n).map Char.toUpper

/-- Digits brought to at least `width` places by zeros on the left. -/
def padDigits (width : Nat) (digits : List Char) : List Char :=
  List.replicate (width - digits.length) '0' ++ digits

def decimal (n : Nat) : String := String.ofList (decimalDigits n)

def hex (n : Nat) : String := String.ofList (hexDigits n)

def paddedHex (width n : Nat) : String := String.ofList (padDigits width (hexDigits n))

def paddedUpperHex (width n : Nat) : String := String.ofList (padDigits width (upperHexDigits n))

/-- A number in hexadecimal with its radix mark. -/
def markedHex (n : Nat) : String := "0x" ++ hex n

/-- A byte in hexadecimal with its radix mark and both digits. -/
def markedByte (b : UInt8) : String := "0x" ++ paddedHex 2 b.toNat

def decimalDigit? (c : Char) : Option Nat :=
  if '0' ≤ c ∧ c ≤ '9' then some (c.toNat - '0'.toNat) else none

/-- The value of a hexadecimal digit of either case. -/
def hexDigit? (c : Char) : Option Nat :=
  if '0' ≤ c ∧ c ≤ '9' then some (c.toNat - '0'.toNat)
  else if 'a' ≤ c ∧ c ≤ 'f' then some (c.toNat - 'a'.toNat + 10)
  else if 'A' ≤ c ∧ c ≤ 'F' then some (c.toNat - 'A'.toNat + 10)
  else none

/-- The number that digits spell in a radix, most significant first; no digits spell zero. -/
def numberOf (radix : Nat) (digits : List Nat) : Nat :=
  digits.foldl (fun n d ↦ n * radix + d) 0

/-- Reads a non-empty run of decimal digits. -/
def readDecimal? (cs : List Char) : Option Nat :=
  if cs.isEmpty then none else (cs.mapM decimalDigit?).map (numberOf 10)

end InfoScreen.Text
