import InfoScreen.Boot.Record

/-!
# Boot images

The payloads of the data records, packed one behind the other in file order, are the boot program.
Reading stops behind the end-of-file record; blank lines do not count.  The program length is an
eight-bit parameter, so a program has at most 255 bytes, and the rest of the 256-byte memory is
filled.
-/

namespace InfoScreen.Boot

open Text

/-- Bytes of the boot memory. -/
def capacity : Nat := 256

/-- What unused memory reads as. -/
def fill : UInt8 := 0xEA

/-- The longest program whose length fits its parameter. -/
def maxLength : Nat := 255

inductive BootError where
  /-- The line of the given number, counted from one, is no record. -/
  | record (line : Nat) (error : RecordError)
  | imageTooLarge (length : Nat)
  deriving DecidableEq

def BootError.message : BootError → String
  | record line error => "line " ++ decimal line ++ ": " ++ error.message
  | imageTooLarge length =>
    "boot image holds " ++ decimal length ++ " bytes, capacity is " ++ decimal maxLength

def recordsOfLines (number : Nat) : List (List Char) → Except BootError (List Record)
  | [] => .ok []
  | line :: rest =>
    if trim line = [] then recordsOfLines (number + 1) rest
    else
      match Record.parse line with
      | .error e => .error (.record number e)
      | .ok record =>
        if record.kind = .endOfFile then .ok [record]
        else (recordsOfLines (number + 1) rest).map (record :: ·)

/-- All records of a file, up to and including the end-of-file record. -/
def records (text : List Char) : Except BootError (List Record) := recordsOfLines 1 (lines text)

structure Image where
  bytes : List UInt8
  length_le : bytes.length ≤ maxLength

namespace Image

/-- The payloads of the data records. -/
def payload (records : List Record) : List UInt8 :=
  (records.filter fun record ↦ record.kind = .data).flatMap Record.data

/-- Packs the payloads of the data records; addresses and checksums are not looked at. -/
def ofRecords (records : List Record) : Except BootError Image :=
  if h : (payload records).length ≤ maxLength then .ok ⟨payload records, h⟩
  else .error (.imageTooLarge (payload records).length)

def ofText (text : List Char) : Except BootError Image :=
  match records text with
  | .error e => .error e
  | .ok records => ofRecords records

def entryLine (index : Nat) (byte : UInt8) : String :=
  "        " ++ decimal index ++ ": 8'h" ++ paddedUpperHex 2 byte.toNat ++ ",\n"

/-- The memory as an array with its contents, and the length parameter. -/
def render (image : Image) : String :=
  "logic [7:0] boot_program[" ++ decimal capacity ++ "];\n\nassign boot_program = '\x7b\n" ++
    String.join (image.bytes.zipIdx.map fun (byte, index) ↦ entryLine index byte) ++
    "        default: 8'h" ++ paddedUpperHex 2 fill.toNat ++ "\n    \x7d;\n" ++
    "parameter logic[7:0] boot_program_length = " ++ decimal image.bytes.length ++ ";\n"

end Image

end InfoScreen.Boot
