import InfoScreen.Text.Digits

/-!
# Bitmap fonts

A raw font is a run of glyphs, each sixteen rows of eight pixels, one byte to a row with the
leftmost pixel in the highest bit.  A glyph that is cut short at the end is completed with blank
rows.
-/

namespace InfoScreen

open Text

def glyphHeight : Nat := 16

/-- Glyphs of the seven-bit character set. -/
def defaultGlyphs : Nat := 128

structure Glyph where
  rows : List UInt8
  length_rows : rows.length = glyphHeight
  deriving DecidableEq

def Glyph.ofBytes (bytes : List UInt8) : Glyph where
  rows := (bytes ++ List.replicate glyphHeight 0).take glyphHeight
  length_rows := by simp

structure Font where
  glyphs : List Glyph
  deriving DecidableEq

namespace Font

/-- Cuts bytes into at most `count` glyphs. -/
def cut : (count : Nat) → List UInt8 → List Glyph
  | 0, _ => []
  | _ + 1, [] => []
  | count + 1, byte :: bytes =>
    Glyph.ofBytes (byte :: bytes) :: cut count ((byte :: bytes).drop glyphHeight)

def ofBytes (bytes : List UInt8) (maxGlyphs : Nat) : Font := ⟨cut maxGlyphs bytes⟩

/-- A heading with the code, then one line of hexadecimal digits for each row. -/
def glyphText (code : Nat) (glyph : Glyph) : String :=
  "# code: " ++ decimal code ++ "\n" ++
    String.join (glyph.rows.map fun row ↦ paddedHex 2 row.toNat ++ "\n")

/-- The character memory file. -/
def render (font : Font) : String :=
  String.join (font.glyphs.zipIdx.map fun (glyph, code) ↦ glyphText code glyph)

def rowArt (row : UInt8) : String :=
  String.ofList ((List.range 8).reverse.map fun bit ↦ if row.toNat.testBit bit then '*' else ' ')

/-- A glyph drawn with asterisks. -/
def art (glyph : Glyph) : String := String.join (glyph.rows.map fun row ↦ rowArt row ++ "\n")

def preview? (font : Font) (code : Nat) : Option String := font.glyphs[code]?.map art

end Font

end InfoScreen
