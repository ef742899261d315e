import InfoScreen.Proofs.BootFile
import InfoScreen.Proofs.Lines
import Mathlib.Data.List.Basic

/-!
# The text of a boot program

The text has one line for each byte of the program, under its decimal index and with the byte in two
upper-case digits, then a line for the rest of the memory, and at the end the length of the program.
The lines of bytes and the length can be read back, and no other line reads like them, so programs
that differ have different texts.  A program that has been packed is short enough for its length to
fit eight bits.
-/

namespace InfoScreen

namespace Text

def upperDigit (d : Nat) : Char := "0123456789ABCDEF".toList.getD d '0'

def upperPair (byte : UInt8) : List Char :=
  [upperDigit (byte.toNat / 16), upperDigit (byte.toNat % 16)]

theorem digitChar_toUpper {d : Nat} (hd : d < 16) : d.digitChar.toUpper = upperDigit d := by
  have hall : ∀ d < 16, d.digitChar.toUpper = upperDigit d := by decide
  exact hall d hd

theorem hexDigit?_upperDigit {d : Nat} (hd : d < 16) : hexDigit? (upperDigit d) = some d := by
  have hall : ∀ d < 16, hexDigit? (upperDigit d) = some d := by decide
  exact hall d hd

theorem unbroken_upperPair (byte : UInt8) : Unbroken (upperPair byte) := by
  have hall : ∀ d < 16, Unbroken [upperDigit d] := by decide
  have hbyte := byte.toNat_lt
  exact unbroken_append.mpr ⟨hall _ (by omega), hall _ (by omega)⟩

theorem toList_paddedUpperHex_byte (byte : UInt8) :
    (paddedUpperHex 2 byte.toNat).toList = upperPair byte := by
  have hbyte := byte.toNat_lt
  have hhigh : byte.toNat / 16 < 16 := by omega
  have hlow : byte.toNat % 16 < 16 := by omega
  rw [paddedUpperHex, String.toList_ofList, upperHexDigits, padDigits_byte rfl,
    digitChar_toUpper hhigh, digitChar_toUpper hlow, upperPair]

end Text

namespace Boot

open Text

/-! ## The lines of the text -/

def indent : List Char := "        ".toList

def lengthMark : List Char := "parameter logic[7:0] boot_program_length = ".toList

def byteLine (index : Nat) (byte : UInt8) : List Char :=
  indent ++ (decimalDigits index ++ (": 8'h".toList ++ (upperPair byte ++ [','])))

/-- The line of the memory behind the program. -/
def fillLine : List Char := "        default: 8'hEA".toList

def lengthLine (length : Nat) : List Char :=
  lengthMark ++ (decimalDigits length ++ [';'])

def headingLines : List (List Char) :=
  ["logic [7:0] boot_program[256];".toList, [], "assign boot_program = '\x7b".toList]

def closingLines (length : Nat) : List (List Char) :=
  [fillLine, "    \x7d;".toList, lengthLine length]

/-- The lines of a program, the bytes of which are numbered from zero. -/
def programLines (bytes : List UInt8) : List (List Char) :=
  headingLines ++
    ((bytes.zipIdx.map fun (byte, index) ↦ byteLine index byte) ++ closingLines bytes.length)

theorem toList_entryLine (index : Nat) (byte : UInt8) :
    (Image.entryLine index byte).toList = byteLine index byte ++ ['\n'] := by
  have hend : ",\n".toList = [','] ++ ['\n'] := rfl
  unfold Image.entryLine byteLine indent
  simp only [String.toList_append, toList_decimal, toList_paddedUpperHex_byte, hend,
    List.append_assoc]

/-- The text in front of the bytes, as lines. -/
theorem toList_heading :
    "logic [7:0] boot_program[".toList ++
        (decimalDigits capacity ++ "];\n\nassign boot_program = '\x7b\n".toList) =
      headingLines.flatMap (· ++ ['\n']) := by
  decide

/-- The text behind the bytes, as lines. -/
theorem toList_closing (length : Nat) :
    "        default: 8'h".toList ++ (['E', 'A'] ++ ("\n    \x7d;\n".toList ++
        ("parameter logic[7:0] boot_program_length = ".toList ++
          (decimalDigits length ++ ";\n".toList)))) =
      (closingLines length).flatMap (· ++ ['\n']) := by
  have hfill : "        default: 8'h".toList ++ ['E', 'A'] = fillLine := by decide
  have hbrace : "\n    \x7d;\n".toList = ['\n'] ++ ("    \x7d;".toList ++ ['\n']) := by
    decide
  have hend : ";\n".toList = [';'] ++ ['\n'] := by decide
  rw [← List.append_assoc, hfill, hbrace, hend]
  unfold closingLines lengthLine lengthMark
  simp only [List.flatMap_cons, List.flatMap_nil, List.append_assoc, List.append_nil]

/-- The text of a program is its lines, ended by line feeds. -/
theorem toList_render (image : Image) :
    image.render.toList = (programLines image.bytes).flatMap (· ++ ['\n']) := by
  have hentries : (String.join (image.bytes.zipIdx.map fun (byte, index) ↦
      Image.entryLine index byte)).toList =
        (image.bytes.zipIdx.map fun (byte, index) ↦ byteLine index byte).flatMap
          (· ++ ['\n']) := by
    rw [String.toList_join, List.flatMap_map, List.flatMap_map]
    exact List.flatMap_congr fun entry _ ↦ toList_entryLine entry.2 entry.1
  have hfill : (paddedUpperHex 2 fill.toNat).toList = ['E', 'A'] := toList_paddedUpperHex_byte fill
  unfold Image.render programLines
  rw [List.flatMap_append, List.flatMap_append, ← hentries, ← toList_heading, ← toList_closing]
  simp only [String.toList_append, hfill, toList_decimal, List.append_assoc]

theorem unbroken_byteLine (index : Nat) (byte : UInt8) : Unbroken (byteLine index byte) := by
  unfold byteLine
  simp only [unbroken_append, unbroken_decimalDigits, unbroken_upperPair]
  decide

theorem unbroken_lengthLine (length : Nat) : Unbroken (lengthLine length) := by
  unfold lengthLine
  simp only [unbroken_append, unbroken_decimalDigits]
  decide

theorem unbroken_programLines (bytes : List UInt8) :
    ∀ line ∈ programLines bytes, Unbroken line := by
  have hheading : ∀ line ∈ headingLines, Unbroken line := by decide
  have hfill : Unbroken fillLine := by decide
  have hbrace : Unbroken "    \x7d;".toList := by decide
  intro line hline
  unfold programLines closingLines at hline
  simp only [List.mem_append, List.mem_map, List.mem_cons, List.not_mem_nil, or_false] at hline
  -- heading, bytes and the three lines behind them
  rcases hline with hline | ⟨entry, -, rfl⟩ | rfl | rfl | rfl
  · exact hheading line hline
  · exact unbroken_byteLine _ _
  · exact hfill
  · exact hbrace
  · exact unbroken_lengthLine _

theorem lines_render (image : Image) :
    lines image.render.toList = programLines image.bytes := by
  rw [toList_render, lines_flatMap (unbroken_programLines image.bytes)]

/-! ## Reading the text back -/

/-- The decimal number behind a mark that begins the line, and what follows the number. -/
def numberBehind? (mark line : List Char) : Option (Nat × List Char) :=
  (mark.isPrefixOf? line).bind fun rest ↦
    (readDecimal? (rest.takeWhile Char.isDigit)).map fun n ↦ (n, rest.dropWhile Char.isDigit)

def entryOn? (line : List Char) : Option (Nat × UInt8) :=
  match numberBehind? indent line with
  | some (index, [':', ' ', '8', '\x27', 'h', high, low, ',']) =>
    match hexDigit? high, hexDigit? low with
    | some h, some l => some (index, UInt8.ofNat (h * 16 + l))
    | _, _ => none
  | _ => none

def lengthOn? (line : List Char) : Option Nat :=
  match numberBehind? lengthMark line with
  | some (length, [';']) => some length
  | _ => none

/-- The program in a text, by its lines of bytes. -/
def readProgram (text : List Char) : List UInt8 :=
  ((lines text).filterMap entryOn?).map Prod.snd

/-- A number is read up to the first character behind it, if that is no digit. -/
theorem numberBehind?_append (mark : List Char) (n : Nat) {c : Char} (hc : c.isDigit = false)
    (after : List Char) :
    numberBehind? mark (mark ++ (decimalDigits n ++ c :: after)) = some (n, c :: after) := by
  have hmark : mark.isPrefixOf? (mark ++ (decimalDigits n ++ c :: after)) =
      some (decimalDigits n ++ c :: after) := List.isPrefixOf?_eq_some_iff_append_eq.mpr rfl
  have hrun : ∀ d ∈ decimalDigits n, d.isDigit = true := fun _ ↦ isDigit_of_mem_decimalDigits
  rw [numberBehind?, hmark, Option.bind_some, List.takeWhile_append_of_pos hrun,
    List.dropWhile_append_of_pos hrun, List.takeWhile_cons_of_neg (by simp [hc]),
    List.dropWhile_cons_of_neg (by simp [hc]), List.append_nil, readDecimal?_decimalDigits]
  rfl

/-- Nothing is read from a line that begins with another character than the mark. -/
theorem numberBehind?_cons {c d : Char} (h : c ≠ d) (mark line : List Char) :
    numberBehind? (c :: mark) (d :: line) = none := by
  simp [numberBehind?, List.isPrefixOf?, h]

theorem entryOn?_byteLine (index : Nat) (byte : UInt8) :
    entryOn? (byteLine index byte) = some (index, byte) := by
  have hline : byteLine index byte = indent ++ (decimalDigits index ++
      ':' :: [' ', '8', '\x27', 'h', upperDigit (byte.toNat / 16), upperDigit (byte.toNat % 16),
        ',']) := by
    have hmark : ": 8'h".toList = [':', ' ', '8', '\x27', 'h'] := by decide
    rw [byteLine, hmark]
    rfl
  have hbyte := byte.toNat_lt
  rw [entryOn?, hline, numberBehind?_append indent index (by decide)]
  simp only [hexDigit?_upperDigit (show byte.toNat / 16 < 16 by omega),
    hexDigit?_upperDigit (show byte.toNat % 16 < 16 by omega), Nat.div_add_mod',
    UInt8.ofNat_toNat]

theorem lengthOn?_lengthLine (length : Nat) : lengthOn? (lengthLine length) = some length := by
  rw [lengthOn?, lengthLine, numberBehind?_append lengthMark length (by decide)]
  rfl

theorem indent_eq : indent = ' ' :: indent.tail := by decide

theorem lengthMark_eq : lengthMark = 'p' :: lengthMark.tail := by decide

theorem entryOn?_lengthLine (length : Nat) : entryOn? (lengthLine length) = none := by
  rw [entryOn?, lengthLine, indent_eq, lengthMark_eq, List.cons_append,
    numberBehind?_cons (by decide)]

theorem lengthOn?_byteLine (index : Nat) (byte : UInt8) :
    lengthOn? (byteLine index byte) = none := by
  rw [lengthOn?, byteLine, indent_eq, lengthMark_eq, List.cons_append,
    numberBehind?_cons (by decide)]

/-- No other line reads like the line of a byte. -/
theorem filterMap_entryOn?_programLines (bytes : List UInt8) :
    (programLines bytes).filterMap entryOn? =
      bytes.zipIdx.map fun (byte, index) ↦ (index, byte) := by
  have hheading : headingLines.filterMap entryOn? = [] := by decide
  have hfill : entryOn? fillLine = none := by decide
  have hbrace : entryOn? "    \x7d;".toList = none := by decide
  have hentries : (bytes.zipIdx.map fun (byte, index) ↦ byteLine index byte).filterMap entryOn? =
      bytes.zipIdx.map fun (byte, index) ↦ (index, byte) := by
    rw [List.filterMap_map, ← List.filterMap_eq_map]
    exact List.filterMap_congr fun entry _ ↦ entryOn?_byteLine entry.2 entry.1
  rw [programLines, List.filterMap_append, List.filterMap_append, hheading, hentries]
  simp only [closingLines, List.filterMap_cons, hfill, hbrace, entryOn?_lengthLine,
    List.filterMap_nil,
    List.nil_append, List.append_nil]

/-- No other line reads like the line of the length. -/
theorem filterMap_lengthOn?_programLines (bytes : List UInt8) :
    (programLines bytes).filterMap lengthOn? = [bytes.length] := by
  have hheading : headingLines.filterMap lengthOn? = [] := by decide
  have hfill : lengthOn? fillLine = none := by decide
  have hbrace : lengthOn? "    \x7d;".toList = none := by decide
  have hentries : (bytes.zipIdx.map fun (byte, index) ↦ byteLine index byte).filterMap lengthOn? =
      [] := by
    rw [List.filterMap_map, List.filterMap_eq_nil_iff]
    exact fun entry _ ↦ lengthOn?_byteLine entry.2 entry.1
  rw [programLines, List.filterMap_append, List.filterMap_append, hheading, hentries]
  simp only [closingLines, List.filterMap_cons, hfill, hbrace, lengthOn?_lengthLine,
    List.filterMap_nil, List.nil_append]

theorem readProgram_render (image : Image) : readProgram image.render.toList = image.bytes := by
  rw [readProgram, lines_render, filterMap_entryOn?_programLines, List.map_map]
  exact List.zipIdx_map_fst 0 image.bytes

theorem Image.bytes_injective : Image.bytes.Injective := by
  rintro ⟨bytes, hbytes⟩ ⟨others, hothers⟩ (rfl : bytes = others)
  rfl

structure TellsProgram (image : Image) : Prop where
  /-- The bytes stand line by line between the heading and what closes the text. -/
  lines_eq : lines image.render.toList = headingLines ++
    ((image.bytes.zipIdx.map fun (byte, index) ↦ byteLine index byte) ++
      closingLines image.bytes.length)
  /-- Read back, the lines of bytes are numbered from zero, and there is one for each byte. -/
  entries : (lines image.render.toList).filterMap entryOn? =
    image.bytes.zipIdx.map fun (byte, index) ↦ (index, byte)
  /-- One line tells the length. -/
  length : (lines image.render.toList).filterMap lengthOn? = [image.bytes.length]
  length_lt : image.bytes.length < 2 ^ 8
  bytes : readProgram image.render.toList = image.bytes
  /-- Another program has another text. -/
  render_eq_iff : ∀ other : Image, other.render = image.render ↔ other = image

theorem tellsProgram (image : Image) : TellsProgram image where
  lines_eq := lines_render image
  entries := by rw [lines_render, filterMap_entryOn?_programLines]
  length := by rw [lines_render, filterMap_lengthOn?_programLines]
  length_lt := Nat.lt_of_le_of_lt image.length_le (by decide)
  bytes := readProgram_render image
  render_eq_iff other := by
    constructor
    · intro h
      apply Image.bytes_injective
      rw [← readProgram_render, ← readProgram_render, h]
    · exact congrArg Image.render

/-- The text of a program that has been packed tells what the data records hold together. -/
theorem render_tells_records {found : List Record} {image : Image}
    (h : Image.ofRecords found = .ok image) :
    image.bytes = (payloads found).flatten ∧ TellsProgram image :=
  ⟨(ofRecords_eq_ok_iff.mp h).2, tellsProgram image⟩

/-- Records of the longest program: two of data and the one that ends the file. -/
def longestRecords : List Record := [
  ⟨0, .data, List.replicate 128 0x1A, 0x80⟩,
  ⟨0x80, .data, List.replicate 127 0xEA, 0xEB⟩,
  ⟨0, .endOfFile, [], 0xFF⟩]

def longestImage : Image where
  bytes := List.replicate 128 0x1A ++ List.replicate 127 0xEA
  length_le := by
    rw [List.length_append, List.length_replicate, List.length_replicate]
    decide

theorem render_tells_longest_records :
    Image.ofRecords longestRecords = .ok longestImage ∧
    longestImage.bytes = (payloads longestRecords).flatten ∧ TellsProgram longestImage := by
  have hpayloads : payloads longestRecords =
      [List.replicate 128 0x1A, List.replicate 127 0xEA] := rfl
  have htotal : totalLength longestRecords ≤ maxLength := by
    rw [totalLength, hpayloads, List.map_cons, List.map_singleton, List.length_replicate,
      List.length_replicate]
    decide
  have h : Image.ofRecords longestRecords = .ok longestImage :=
    ofRecords_eq_ok_iff.mpr ⟨htotal, by rw [hpayloads]; rfl⟩
  exact ⟨h, render_tells_records h⟩

end Boot

end InfoScreen
