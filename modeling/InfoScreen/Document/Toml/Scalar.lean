import InfoScreen.Document
import InfoScreen.Text.Digits

/-!
# Numbers, booleans, dates and times of layout files

A scalar is a run of letters, digits, signs, points, colons and underscores that has one of the
forms below as a whole.  Integers have 64 bits and may be written in hexadecimal, octal and binary;
single underscores may separate digits.
-/

namespace InfoScreen.Toml

open Text

def isScalarChar (c : Char) : Bool :=
  c.isAlphanum ∨ c = '_' ∨ c = '+' ∨ c = '-' ∨ c = '.' ∨ c = ':'

/-- A run of digits with single underscores between digits; answers the digits. -/
def digitRun? (isDigit : Char → Bool) : List Char → Option (List Char)
  | [] => none
  | [c] => if isDigit c then some [c] else none
  | c :: '_' :: rest => if isDigit c then (digitRun? isDigit rest).map (c :: ·) else none
  | c :: rest => if isDigit c then (digitRun? isDigit rest).map (c :: ·) else none

def radixNumber? (radix : Nat) (cs : List Char) : Option Nat := do
  let isDigit (c : Char) : Bool :=
    match hexDigit? c with
    | some d => d < radix
    | none => false
  let digits ← digitRun? isDigit cs
  return numberOf radix (← digits.mapM hexDigit?)

def splitSign : List Char → Option Bool × List Char
  | '+' :: rest => (some false, rest)
  | '-' :: rest => (some true, rest)
  | cs => (none, cs)

/-- A decimal number without a sign; a leading zero stands alone. -/
def unsignedDecimal? (cs : List Char) : Option Nat := do
  let digits ← digitRun? Char.isDigit cs
  match digits with
  | '0' :: _ :: _ => none
  | _ => radixNumber? 10 cs

/-- An integer of 64 bits with a sign. -/
def integer? (cs : List Char) : Option Int := do
  let n : Int ←
    match cs with
    | '0' :: 'x' :: rest => (radixNumber? 16 rest).map Int.ofNat
    | '0' :: 'o' :: rest => (radixNumber? 8 rest).map Int.ofNat
    | '0' :: 'b' :: rest => (radixNumber? 2 rest).map Int.ofNat
    | _ =>
      let (negative, digits) := splitSign cs
      (unsignedDecimal? digits).map fun n ↦ if negative = some true then -(n : Int) else n
  if -0x8000000000000000 ≤ n ∧ n < 0x8000000000000000 then some n else none

def isExponent (cs : List Char) : Bool := (digitRun? Char.isDigit (splitSign cs).2).isSome

/-- Text cut at its first `e`, if it has one, in either case. -/
def splitExponent (cs : List Char) : List Char × Option (List Char) :=
  let mantissa := cs.takeWhile fun c ↦ c ≠ 'e' ∧ c ≠ 'E'
  match cs.drop mantissa.length with
  | [] => (mantissa, none)
  | _ :: rest => (mantissa, some rest)

def exponentValue (cs : List Char) : Int :=
  let (negative, digits) := splitSign cs
  let n := (radixNumber? 10 digits).getD 0
  if negative = some true then -(n : Int) else n

/-- Whether the number with some decimal digits, times a power of ten, lies beyond the finite
numbers of 64 bits: it is at least halfway from the largest of them to the next power of two.
Numbers of fewer than 309 or more than 309 places need no comparison. -/
def isBeyondFinite (digits : List Char) (exponent : Int) : Bool :=
  let digits := digits.dropWhile (· = '0')
  let places := digits.length + exponent
  if digits = [] ∨ places < 309 then false
  else if 309 < places then true
  else
    let n := (radixNumber? 10 digits).getD 0
    (1 <<< 1024 - 1 <<< 970) * Nat.pow 10 (-exponent).toNat ≤ n * Nat.pow 10 exponent.toNat

/-- Whether a text is a number that is not written as an integer.  Positive numbers must be
finite. -/
def isFraction (cs : List Char) : Bool :=
  let (sign, body) := splitSign cs
  let (mantissa, exponent) := splitExponent body
  let whole := mantissa.takeWhile (· ≠ '.')
  let isFinite (places : List Char) : Bool :=
    sign == some true ||
      !isBeyondFinite ((whole ++ places).filter Char.isDigit)
        (exponentValue (exponent.getD ['0']) - (places.filter Char.isDigit).length)
  body == "inf".toList || body == "nan".toList ||
    ((unsignedDecimal? whole).isSome &&
      match mantissa.drop whole.length, exponent with
      | [], none => false
      | [], some exponent => isExponent exponent && isFinite []
      | _ :: places, none => (digitRun? Char.isDigit places).isSome && isFinite places
      | _ :: places, some exponent =>
        (digitRun? Char.isDigit places).isSome && isExponent exponent && isFinite places)

def daysInMonth (year month : Nat) : Nat :=
  if month = 2 then if year % 4 = 0 ∧ (year % 100 ≠ 0 ∨ year % 400 = 0) then 29 else 28
  else if month = 4 ∨ month = 6 ∨ month = 9 ∨ month = 11 then 30
  else 31

/-- Year, month and day between hyphens. -/
def isDate : List Char → Bool
  | [y1, y2, y3, y4, '-', m1, m2, '-', d1, d2] =>
    match readDecimal? [y1, y2, y3, y4], readDecimal? [m1, m2], readDecimal? [d1, d2] with
    | some year, some month, some day =>
      1 ≤ month ∧ month ≤ 12 ∧ 1 ≤ day ∧ day ≤ daysInMonth year month
    | _, _, _ => false
  | _ => false

/-- Hours and minutes between colons. -/
def isClock (h1 h2 m1 m2 : Char) : Bool :=
  match readDecimal? [h1, h2], readDecimal? [m1, m2] with
  | some hours, some minutes => hours ≤ 23 ∧ minutes ≤ 59
  | _, _ => false

/-- The text behind a time of day, if there is one at the front. -/
def afterTime? : List Char → Option (List Char)
  | h1 :: h2 :: ':' :: m1 :: m2 :: ':' :: s1 :: s2 :: rest =>
    match readDecimal? [s1, s2] with
    | some seconds =>
      if isClock h1 h2 m1 m2 ∧ seconds ≤ 60 then
        match rest with
        | '.' :: places =>
          if (places.takeWhile Char.isDigit) = [] then none
          else some (places.dropWhile Char.isDigit)
        | _ => some rest
      else none
    | none => none
  | _ => none

/-- The distance of a local time from universal time. -/
def isOffset : List Char → Bool
  | ['Z'] => true
  | ['z'] => true
  | [sign, h1, h2, ':', m1, m2] => (sign = '+' ∨ sign = '-') ∧ isClock h1 h2 m1 m2
  | _ => false

def isTime (cs : List Char) : Bool := afterTime? cs = some []

/-- Whether a text is a time of day, perhaps with an offset. -/
def isZonedTime (cs : List Char) : Bool :=
  match afterTime? cs with
  | some rest => rest = [] ∨ isOffset rest
  | none => false

/-- Whether a text is a date, a time, or both with a letter between them. -/
def isMoment (cs : List Char) : Bool :=
  isTime cs || isDate cs ||
    match cs.drop 10 with
    | c :: time => (c == 'T' || c == 't') && isDate (cs.take 10) && isZonedTime time
    | [] => false

/-- A scalar and the rest of the text.  A date may go on with a space and a time. -/
def scalar? (cs : List Char) : Option (Document × List Char) :=
  let token := cs.takeWhile isScalarChar
  let rest := cs.dropWhile isScalarChar
  if token = "true".toList then some (.boolean true, rest)
  else if token = "false".toList then some (.boolean false, rest)
  else if isDate token then
    match rest with
    | ' ' :: more =>
      let time := more.takeWhile isScalarChar
      if time = [] then some (.moment, rest)
      else if isZonedTime time then some (.moment, more.dropWhile isScalarChar)
      else none
    | _ => some (.moment, rest)
  else if isMoment token then some (.moment, rest)
  else if isFraction token then some (.fraction, rest)
  else (integer? token).map fun n ↦ (.integer n, rest)

end InfoScreen.Toml
