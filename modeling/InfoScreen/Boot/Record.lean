import InfoScreen.Text.Blank
import InfoScreen.Text.Line
import InfoScreen.Text.Quoted

/-!
# Boot program records

A boot program comes as lines of hexadecimal records.  A record is a colon and the hexadecimal
digits of its bytes: the number of data bytes, a two-byte address, the record type, the data and a
checksum that brings the sum of all bytes to zero.  Blanks around a record do not count.
-/

namespace InfoScreen.Boot

open Text

inductive RecordKind where
  | data
  | endOfFile
  | extendedSegmentAddress
  | startSegmentAddress
  | extendedLinearAddress
  | startLinearAddress
  deriving DecidableEq

namespace RecordKind

def ofCode? (code : UInt8) : Option RecordKind :=
  match code.toNat with
  | 0 => some data
  | 1 => some endOfFile
  | 2 => some extendedSegmentAddress
  | 3 => some startSegmentAddress
  | 4 => some extendedLinearAddress
  | 5 => some startLinearAddress
  | _ => none

def code : RecordKind → UInt8
  | data => 0
  | endOfFile => 1
  | extendedSegmentAddress => 2
  | startSegmentAddress => 3
  | extendedLinearAddress => 4
  | startLinearAddress => 5

end RecordKind

structure Record where
  address : UInt16
  kind : RecordKind
  data : List UInt8
  checksum : UInt8
  deriving DecidableEq

/-- Why some text does not spell bytes. -/
inductive DigitError where
  | oddLength
  /-- The byte at `index` of the text is no digit. -/
  | invalid (byte : UInt8) (index : Nat)
  deriving DecidableEq

def DigitError.message : DigitError → String
  | oddLength => "Odd number of digits"
  | invalid byte index =>
    "Invalid character " ++ quotedChar (Char.ofNat byte.toNat) ++ " at position " ++ decimal index

/-- Why a line is no record. -/
inductive RecordError where
  | missingStartCode
  | truncated
  | digits (error : DigitError)
  | lengthMismatch (declared : UInt8) (found : Nat)
  | checksum (expected found : UInt8)
  | unknownRecordType (code : UInt8)
  deriving DecidableEq

def RecordError.message : RecordError → String
  | missingStartCode => "record does not start with ':'"
  | truncated => "record is too short"
  | digits error => "invalid hex digits: " ++ error.message
  | lengthMismatch declared found =>
    "declared " ++ decimal declared.toNat ++ " data bytes but found " ++ decimal found
  | checksum expected found =>
    "checksum " ++ markedByte found ++ " does not match computed " ++ markedByte expected
  | unknownRecordType code => "unknown record type " ++ markedByte code

def digitValue? (byte : UInt8) : Option UInt8 :=
  (hexDigit? (Char.ofNat byte.toNat)).map UInt8.ofNat

/-- Reads pairs of digits from position `index` on; the first byte that is no digit is named. -/
def readPairs (index : Nat) : List UInt8 → Except DigitError (List UInt8)
  | high :: low :: rest =>
    match digitValue? high, digitValue? low with
    | none, _ => .error (.invalid high index)
    | some _, none => .error (.invalid low (index + 1))
    | some h, some l => (readPairs (index + 2) rest).map fun bytes ↦ (h * 16 + l) :: bytes
  | _ => .ok []

/-- The bytes that a text spells, two digits to a byte.  The text is looked at byte by byte, so a
character outside ASCII counts for as many places as its encoding has. -/
def readBytes (text : List Char) : Except DigitError (List UInt8) :=
  let codes := text.flatMap String.utf8EncodeChar
  if codes.length % 2 = 1 then .error .oddLength else readPairs 0 codes

/-- The byte that brings the sum of some bytes to zero. -/
def checksumOf (bytes : List UInt8) : UInt8 := 0 - bytes.foldl (· + ·) 0

namespace Record

/-- The record that some bytes make up, from the length byte to the checksum. -/
def ofBytes : List UInt8 → Except RecordError Record
  | length :: addressHigh :: addressLow :: code :: rest@(_ :: _) =>
    let data := rest.dropLast
    let found := rest.getLastD 0
    let expected := checksumOf (length :: addressHigh :: addressLow :: code :: data)
    if data.length ≠ length.toNat then .error (.lengthMismatch length data.length)
    else if expected ≠ found then .error (.checksum expected found)
    else
      match RecordKind.ofCode? code with
      | none => .error (.unknownRecordType code)
      | some kind =>
        .ok ⟨UInt16.ofNat (addressHigh.toNat * 256 + addressLow.toNat), kind, data, found⟩
  | _ => .error .truncated

def parse (line : List Char) : Except RecordError Record :=
  match trim line with
  | ':' :: body =>
    match readBytes body with
    | .error e => .error (.digits e)
    | .ok bytes => ofBytes bytes
  | _ => .error .missingStartCode

end Record

end InfoScreen.Boot
