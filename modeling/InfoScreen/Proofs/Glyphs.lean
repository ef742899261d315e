import InfoScreen.Font
import InfoScreen.Proofs.HexBytes
import InfoScreen.Proofs.Lines
import Mathlib.Data.List.Basic

/-!
# Fonts are kept whole

The glyphs of a raw font hold its bytes in order, up to the number of glyphs that is asked for, and
blank rows that complete the last glyph.  The character memory file can be read back: each heading
starts the next glyph, and the lines under it are its rows.  In a drawing the rows can be read back
too, from sixteen lines of eight pixels each.
-/

namespace InfoScreen

namespace Text

/-- The bits of a number, the highest of `count` bits first, spell its remainder. -/
theorem numberOf_bits (n count : Nat) :
    numberOf 2 ((List.range count).reverse.map fun bit ↦ (n.testBit bit).toNat) =
      n % 2 ^ count := by
  induction count generalizing n with
  | zero => rw [Nat.pow_zero, Nat.mod_one]; rfl
  | succ count ih =>
    have hhigh : (fun bit ↦ (n.testBit bit).toNat) ∘ Nat.succ =
        fun bit ↦ ((n / 2).testBit bit).toNat := by
      funext bit
      exact congrArg Bool.toNat (Nat.testBit_succ n bit)
    calc
      numberOf 2 ((List.range (count + 1)).reverse.map fun bit ↦ (n.testBit bit).toNat) =
          n / 2 % 2 ^ count * 2 + (n.testBit 0).toNat := by
        rw [List.range_succ_eq_map, List.reverse_cons, List.map_append, List.map_singleton,
          ← List.map_reverse, List.map_map, hhigh, numberOf_append_singleton, ih]
      _ = n % 2 ^ (count + 1) := by
        rw [Nat.pow_succ', Nat.mod_mul, Nat.mul_comm 2, Nat.add_comm, Nat.toNat_testBit]
        simp

theorem toList_paddedHex_byte (byte : UInt8) :
    (paddedHex 2 byte.toNat).toList = lowerDigits [byte] := by
  have hdigits := @padDigits_byte id rfl byte
  rw [List.map_id] at hdigits
  rw [paddedHex, String.toList_ofList, hdigits]
  rfl

end Text

open Text

namespace Glyph

theorem rows_injective : rows.Injective := by
  rintro ⟨rows, hrows⟩ ⟨others, hothers⟩ (rfl : rows = others)
  rfl

theorem rows_ofBytes_of_ge {bytes : List UInt8} (h : glyphHeight ≤ bytes.length) :
    (ofBytes bytes).rows = bytes.take glyphHeight :=
  List.take_append_of_le_length h

/-- A glyph that is cut short is completed with blank rows. -/
theorem rows_ofBytes_of_le {bytes : List UInt8} (h : bytes.length ≤ glyphHeight) :
    (ofBytes bytes).rows = bytes ++ List.replicate (glyphHeight - bytes.length) 0 := by
  calc
    (ofBytes bytes).rows = (bytes ++ List.replicate glyphHeight 0).take glyphHeight := rfl
    _ = bytes ++ List.replicate (glyphHeight - bytes.length) 0 := by
      rw [List.take_append, List.take_of_length_le h, List.take_replicate,
        Nat.min_eq_left (Nat.sub_le _ _)]

end Glyph

namespace Font

theorem cut_nil (count : Nat) : cut count [] = [] := by
  cases count <;> rfl

/-- The glyphs hold the first bytes, and as many blank rows as the last glyph still needs. -/
theorem exists_flatMap_rows_cut (count : Nat) (bytes : List UInt8) :
    ∃ blank < glyphHeight, glyphHeight ∣ min bytes.length (glyphHeight * count) + blank ∧
      (cut count bytes).flatMap Glyph.rows =
        bytes.take (min bytes.length (glyphHeight * count)) ++ List.replicate blank 0 := by
  fun_induction cut count bytes with
  | case1 bytes => exact ⟨0, by decide, by simp, by simp⟩
  | case2 count => exact ⟨0, by decide, by simp, by simp⟩
  | case3 count byte bytes ih =>
    have hpos : 0 < (byte :: bytes).length := Nat.succ_pos _
    generalize byte :: bytes = all at *
    rw [List.flatMap_cons]
    by_cases hfull : glyphHeight ≤ all.length
    · obtain ⟨blank, hblank, hwhole, hrest⟩ := ih
      have hkept : min all.length (glyphHeight * (count + 1)) =
          glyphHeight + min (all.drop glyphHeight).length (glyphHeight * count) := by
        rw [List.length_drop, Nat.mul_succ]
        omega
      refine ⟨blank, hblank, ?_, ?_⟩
      · rw [hkept, Nat.add_assoc]
        exact Nat.dvd_add (Nat.dvd_refl _) hwhole
      · rw [Glyph.rows_ofBytes_of_ge hfull, hrest, hkept, List.take_add, List.append_assoc]
    · -- the last glyph, with nothing behind it
      have hshort : all.length ≤ glyphHeight := Nat.le_of_not_le hfull
      have hkept : min all.length (glyphHeight * (count + 1)) = all.length := by
        rw [Nat.mul_succ]
        omega
      refine ⟨glyphHeight - all.length, by omega, ?_, ?_⟩
      · refine ⟨1, ?_⟩
        rw [hkept, Nat.add_sub_cancel' hshort, Nat.mul_one]
      · rw [Glyph.rows_ofBytes_of_le hshort, List.drop_of_length_le hshort, cut_nil, hkept,
          List.take_length, List.flatMap_nil, List.append_nil]

/-! ## The character memory file -/

inductive MemoryLine where
  /-- The rows below are those of the glyph of a code. -/
  | code (number : Nat)
  | row (byte : UInt8)

namespace MemoryLine

def codeMark : List Char := "# code: ".toList

def text : MemoryLine → List Char
  | code number => codeMark ++ decimalDigits number
  | row byte => lowerDigits [byte]

def read? (line : List Char) : Option MemoryLine :=
  match codeMark.isPrefixOf? line with
  | some digits => (readDecimal? digits).map code
  | none =>
    match line with
    | [high, low] =>
      match hexDigit? high, hexDigit? low with
      | some h, some l => some (row (UInt8.ofNat (h * 16 + l)))
      | _, _ => none
    | _ => none

theorem text_row (byte : UInt8) :
    (row byte).text = [(byte.toNat / 16).digitChar, (byte.toNat % 16).digitChar] := rfl

theorem unbroken_text (line : MemoryLine) : Unbroken line.text := by
  cases line with
  | code number =>
    have hmark : Unbroken codeMark := by decide
    exact unbroken_append.mpr ⟨hmark, unbroken_decimalDigits number⟩
  | row byte =>
    have hall : ∀ high < 16, ∀ low < 16, Unbroken [high.digitChar, low.digitChar] := by decide
    have hbyte := byte.toNat_lt
    rw [text_row]
    exact hall _ (by omega) _ (by omega)

/-- Lines are read as they are written: the digits of a row do not look like a mark. -/
theorem read?_text (line : MemoryLine) : read? line.text = some line := by
  cases line with
  | code number =>
    have hmark : codeMark.isPrefixOf? (codeMark ++ decimalDigits number) =
        some (decimalDigits number) := List.isPrefixOf?_eq_some_iff_append_eq.mpr rfl
    simp only [read?, text, hmark, readDecimal?_decimalDigits]
    rfl
  | row byte =>
    have hmark : ∀ high < 16, ∀ low < 16,
        codeMark.isPrefixOf? [high.digitChar, low.digitChar] = none := by decide
    have hread : ∀ d < 16, hexDigit? d.digitChar = some d := by decide
    have hbyte := byte.toNat_lt
    have hhigh : byte.toNat / 16 < 16 := by omega
    have hlow : byte.toNat % 16 < 16 := by omega
    simp only [read?, text_row, hmark _ hhigh _ hlow, hread _ hhigh, hread _ hlow,
      Nat.div_add_mod', UInt8.ofNat_toNat]

theorem mapM_read?_text (list : List MemoryLine) : (list.map text).mapM read? = some list := by
  induction list with
  | nil => rfl
  | cons line rest ih => rw [List.map_cons, List.mapM_cons, read?_text, ih]; rfl

end MemoryLine

def glyphLines (code : Nat) (rows : List UInt8) : List MemoryLine := .code code :: rows.map .row

def memoryLines (glyphs : List (Nat × List UInt8)) : List MemoryLine :=
  glyphs.flatMap fun (code, rows) ↦ glyphLines code rows

/-- The rows in front of the first code, and each code with the rows behind it. -/
def gather : List MemoryLine → List UInt8 × List (Nat × List UInt8)
  | [] => ([], [])
  | .code code :: rest => ([], (code, (gather rest).1) :: (gather rest).2)
  | .row row :: rest => (row :: (gather rest).1, (gather rest).2)

def readMemory (file : List Char) : Option (List (Nat × List UInt8)) :=
  ((lines file).mapM MemoryLine.read?).map fun list ↦ (gather list).2

def numbered (font : Font) : List (Nat × List UInt8) :=
  font.glyphs.zipIdx.map fun (glyph, code) ↦ (code, glyph.rows)

theorem toList_glyphText (code : Nat) (glyph : Glyph) :
    (glyphText code glyph).toList =
      (glyphLines code glyph.rows).flatMap fun line ↦ line.text ++ ['\n'] := by
  have hend : "\n".toList = ['\n'] := rfl
  have hrows : (String.join (glyph.rows.map fun row ↦ paddedHex 2 row.toNat ++ "\n")).toList =
      glyph.rows.flatMap fun row ↦ lowerDigits [row] ++ ['\n'] := by
    rw [String.toList_join, List.flatMap_map]
    refine List.flatMap_congr fun row _ ↦ ?_
    rw [String.toList_append, toList_paddedHex_byte, hend]
  rw [glyphText, glyphLines, List.flatMap_cons, List.flatMap_map]
  simp only [String.toList_append, toList_decimal, hrows, hend, List.append_assoc]
  rfl

/-- The file of a font is its lines, ended by line feeds. -/
theorem toList_render (font : Font) :
    font.render.toList =
      ((memoryLines font.numbered).map MemoryLine.text).flatMap (· ++ ['\n']) := by
  rw [render, String.toList_join, List.flatMap_map, memoryLines, numbered, List.flatMap_map,
    List.flatMap_assoc, List.flatMap_map]
  exact List.flatMap_congr fun entry _ ↦ toList_glyphText entry.2 entry.1

theorem lines_render (font : Font) :
    lines font.render.toList = (memoryLines font.numbered).map MemoryLine.text := by
  rw [toList_render, lines_flatMap]
  intro line hline
  obtain ⟨line, -, rfl⟩ := List.mem_map.mp hline
  exact line.unbroken_text

theorem gather_rows_append (rows : List UInt8) (rest : List MemoryLine) :
    gather (rows.map .row ++ rest) = (rows ++ (gather rest).1, (gather rest).2) := by
  induction rows with
  | nil => rfl
  | cons row rows ih => rw [List.map_cons, List.cons_append, gather, ih]; rfl

/-- Rows are gathered under the code that they follow. -/
theorem gather_memoryLines (glyphs : List (Nat × List UInt8)) :
    gather (memoryLines glyphs) = ([], glyphs) := by
  induction glyphs with
  | nil => rfl
  | cons glyph rest ih =>
    have hcons : memoryLines (glyph :: rest) =
        .code glyph.1 :: (glyph.2.map .row ++ memoryLines rest) := rfl
    rw [hcons, gather, gather_rows_append, ih, List.append_nil]

theorem readMemory_render (font : Font) : readMemory font.render.toList = some font.numbered := by
  rw [readMemory, lines_render, MemoryLine.mapM_read?_text, Option.map_some, gather_memoryLines]

theorem map_snd_numbered (font : Font) :
    font.numbered.map Prod.snd = font.glyphs.map Glyph.rows := by
  calc
    font.numbered.map Prod.snd = (font.glyphs.zipIdx.map Prod.fst).map Glyph.rows := by
      rw [numbered, List.map_map, List.map_map]
      rfl
    _ = font.glyphs.map Glyph.rows := by rw [List.zipIdx_map_fst]

theorem numbered_injective : numbered.Injective := by
  rintro ⟨glyphs⟩ ⟨others⟩ h
  have hrows := congrArg (List.map Prod.snd) h
  rw [map_snd_numbered, map_snd_numbered] at hrows
  exact congrArg Font.mk (Glyph.rows_injective.list_map hrows)

/-! ## Drawings -/

/-- The row of a line of pixels, where an asterisk is a one and the highest bit comes first. -/
def readRow (line : List Char) : UInt8 :=
  UInt8.ofNat (numberOf 2 (line.map fun c ↦ if c = '*' then 1 else 0))

structure Draws (drawing : List Char) (glyph : Glyph) : Prop where
  ended : (lines drawing).flatMap (· ++ ['\n']) = drawing
  length_lines : (lines drawing).length = glyphHeight
  length_line : ∀ line ∈ lines drawing, line.length = 8
  pixel : ∀ line ∈ lines drawing, ∀ c ∈ line, c = '*' ∨ c = ' '
  rows : (lines drawing).map readRow = glyph.rows

theorem toList_rowArt (row : UInt8) :
    (rowArt row).toList =
      (List.range 8).reverse.map fun bit ↦ if row.toNat.testBit bit then '*' else ' ' :=
  String.toList_ofList

theorem pixel_rowArt (row : UInt8) : ∀ c ∈ (rowArt row).toList, c = '*' ∨ c = ' ' := by
  intro c hc
  rw [toList_rowArt] at hc
  obtain ⟨bit, -, rfl⟩ := List.mem_map.mp hc
  split
  · exact .inl rfl
  · exact .inr rfl

theorem readRow_rowArt (row : UInt8) : readRow (rowArt row).toList = row := by
  have hbits : (fun c : Char ↦ if c = '*' then 1 else 0) ∘
      (fun bit ↦ if row.toNat.testBit bit then '*' else ' ') =
        fun bit ↦ (row.toNat.testBit bit).toNat := by
    funext bit
    cases hbit : row.toNat.testBit bit <;> simp [hbit]
  rw [readRow, toList_rowArt, List.map_map, hbits, numberOf_bits, Nat.mod_eq_of_lt row.toNat_lt,
    UInt8.ofNat_toNat]

def artLines (glyph : Glyph) : List (List Char) := glyph.rows.map fun row ↦ (rowArt row).toList

theorem toList_art (glyph : Glyph) :
    (art glyph).toList = (artLines glyph).flatMap (· ++ ['\n']) := by
  rw [art, artLines, String.toList_join, List.flatMap_map, List.flatMap_map]
  exact List.flatMap_congr fun row _ ↦ String.toList_append

theorem lines_art (glyph : Glyph) : lines (art glyph).toList = artLines glyph := by
  rw [toList_art, lines_flatMap]
  intro line hline
  obtain ⟨row, -, rfl⟩ := List.mem_map.mp hline
  have hpixel := pixel_rowArt row
  exact ⟨fun hfeed ↦ absurd (hpixel _ hfeed) (by decide),
    fun hreturn ↦ absurd (hpixel _ hreturn) (by decide)⟩

theorem draws_art (glyph : Glyph) : Draws (art glyph).toList glyph where
  ended := by rw [lines_art, toList_art]
  length_lines := by rw [lines_art, artLines, List.length_map, glyph.length_rows]
  length_line line hline := by
    rw [lines_art] at hline
    obtain ⟨row, -, rfl⟩ := List.mem_map.mp hline
    rw [toList_rowArt, List.length_map, List.length_reverse, List.length_range]
  pixel line hline := by
    rw [lines_art] at hline
    obtain ⟨row, -, rfl⟩ := List.mem_map.mp hline
    exact pixel_rowArt row
  rows := by
    rw [lines_art, artLines, List.map_map]
    exact List.map_id'' readRow_rowArt glyph.rows

structure TellsGlyphs (font : Font) : Prop where
  /-- The file has a line for each code, and under it one for each row of the glyph. -/
  lines_eq : lines font.render.toList = (memoryLines font.numbered).map MemoryLine.text
  /-- Read back, the file has the glyphs in order, each under its code. -/
  memory : readMemory font.render.toList = some font.numbered
  /-- Another font has another file. -/
  render_eq_iff : ∀ other : Font, other.render = font.render ↔ other = font
  preview : ∀ code, (font.preview? code).isSome ↔ code < font.glyphs.length
  drawing : ∀ code drawing, font.preview? code = some drawing →
    ∃ glyph, font.glyphs[code]? = some glyph ∧ Draws drawing.toList glyph

theorem tellsGlyphs (font : Font) : TellsGlyphs font where
  lines_eq := lines_render font
  memory := readMemory_render font
  render_eq_iff other := by
    constructor
    · intro h
      apply numbered_injective
      apply Option.some.inj
      rw [← readMemory_render, ← readMemory_render, h]
    · exact congrArg render
  preview code := by simp [preview?]
  drawing code drawing h := by
    obtain ⟨glyph, hglyph, rfl⟩ := Option.map_eq_some_iff.mp h
    exact ⟨glyph, hglyph, draws_art glyph⟩

/-- A font holds the first bytes that it is made of, completed by blank rows to a whole number of
glyphs, and its files tell its glyphs. -/
theorem ofBytes_whole (bytes : List UInt8) (maxGlyphs : Nat) :
    (∃ blank < glyphHeight, glyphHeight ∣ min bytes.length (glyphHeight * maxGlyphs) + blank ∧
      (ofBytes bytes maxGlyphs).glyphs.flatMap Glyph.rows =
        bytes.take (min bytes.length (glyphHeight * maxGlyphs)) ++ List.replicate blank 0) ∧
      TellsGlyphs (ofBytes bytes maxGlyphs) :=
  ⟨exists_flatMap_rows_cut maxGlyphs bytes, tellsGlyphs _⟩

end Font

end InfoScreen
