import InfoScreen.Text.Quoted

/-!
# Hexadecimal addresses on the command line

An address is a 32-bit number in hexadecimal digits of either case.  Radix marks in front of it are
skipped, all lower-case ones first and then all upper-case ones, and one plus sign may follow them.
The first thing that is wrong, from left to right, decides the error.
-/

namespace InfoScreen.Program

open Text

inductive AddressError where
  | empty
  | invalidDigit
  | tooLarge
  deriving DecidableEq

def AddressError.reason : AddressError → String
  | empty => "cannot parse integer from empty string"
  | invalidDigit => "invalid digit found in string"
  | tooLarge => "number too large to fit in target type"

def AddressError.message (text : String) (error : AddressError) : String :=
  "invalid hex address " ++ quoted text ++ ": " ++ error.reason

/-- Drops a mark of two characters from the front of a text as often as it stands there. -/
def dropMarks (first second : Char) : List Char → List Char
  | a :: b :: rest =>
    if a = first ∧ b = second then dropMarks first second rest else a :: b :: rest
  | cs => cs

/-- Reads further digits behind the number `n`. -/
def readHex (n : Nat) : List Char → Except AddressError Nat
  | [] => .ok n
  | c :: rest =>
    match hexDigit? c with
    | none => .error .invalidDigit
    | some d => if UInt32.size ≤ n * 16 + d then .error .tooLarge else readHex (n * 16 + d) rest

def readUnmarked : List Char → Except AddressError Nat
  | [] => .error .empty
  | '+' :: c :: rest => readHex 0 (c :: rest)
  | cs => readHex 0 cs

def readAddress (text : List Char) : Except AddressError UInt32 :=
  (readUnmarked (dropMarks '0' 'X' (dropMarks '0' 'x' text))).map UInt32.ofNat

end InfoScreen.Program
