import InfoScreen.Proofs.HexBytes
import InfoScreen.Proofs.Layout
import Mathlib.Data.List.Find
import Std.Data.TreeMap

/-!
# Drawing captions

A list of captions is laid out if no caption has a defect where the captions before it are.  A
defect is a character outside ASCII, or else no room on the row, or else a cell that is taken
already; the first caption with a defect decides the error.  The characters can be placed one after
the other, with a map of the cells that are taken: the map always tells just the characters placed
so far, and the first cell that is found taken is the leftmost one that the caption shares.
-/

namespace InfoScreen

namespace Caption

variable {caption : Caption}

/-- The bytes of a caption's text, one to a cell, from the anchor to the right. -/
def lettering (caption : Caption) : List LiteralCell :=
  caption.text.toUTF8.data.toList.mapIdx fun i byte ↦
    ⟨⟨caption.row.toNat, caption.col.toNat + i⟩, byte⟩

/-- A caption is its text, byte by byte, if it is ASCII. -/
theorem lettering_eq (hascii : ∀ c ∈ caption.text.toList, c.toNat < 128) :
    caption.lettering = caption.cells := by
  have hbytes : caption.text.toUTF8.data.toList = caption.text.toList.map Char.toUInt8 := by
    calc
      caption.text.toUTF8.data.toList = caption.text.toList.utf8Encode.data.toList := by
        rw [String.utf8Encode_toList]
        rfl
      _ = caption.text.toList.flatMap String.utf8EncodeChar := List.toList_data_toByteArray
      _ = caption.text.toList.flatMap fun c ↦ [c.toUInt8] :=
        List.flatMap_congr fun c hc ↦ Boot.utf8EncodeChar_of_ascii (hascii c hc)
      _ = caption.text.toList.map Char.toUInt8 := List.flatMap_pure_eq_map ..
  rw [lettering, hbytes, List.mapIdx_eq_zipIdx_map, List.zipIdx_map, List.map_map]
  rfl

theorem flatMap_lettering_eq {captions : List Caption}
    (h : ∀ caption ∈ captions, caption.Drawable) :
    captions.flatMap lettering = captions.flatMap cells :=
  List.flatMap_congr fun caption hcaption ↦ lettering_eq (h caption hcaption).ascii

theorem length_cells (caption : Caption) : caption.cells.length = caption.text.length := by
  rw [cells, List.length_map, List.length_zipIdx, String.length_toList]

/-- What keeps a caption from being drawn where some cells are taken, and the error that says so. -/
inductive Defect (taken : List Cell) (caption : Caption) : CompileError → Prop
  /-- A character is not ASCII; the first one is named. -/
  | nonAscii {i : Nat} {c : Char} (hchar : caption.text.toList[i]? = some c) (hc : 128 ≤ c.toNat)
      (hfirst : ∀ j < i, ∀ a, caption.text.toList[j]? = some a → a.toNat < 128) :
      Defect taken caption (.nonAsciiCaption caption.text c)
  /-- The text is ASCII but does not start on the grid, or leaves its row. -/
  | overflow (hascii : ∀ c ∈ caption.text.toList, c.toNat < 128)
      (hroom : gridColumns ≤ caption.col.toNat ∨
        gridColumns < caption.col.toNat + caption.text.length) :
      Defect taken caption (.captionOverflow caption.text caption.row caption.col)
  /-- The caption fits but shares cells; the leftmost one is named. -/
  | overlap {i : Nat} (hdrawable : caption.Drawable) (hi : i < caption.text.length)
      (htaken : ⟨caption.row.toNat, caption.col.toNat + i⟩ ∈ taken)
      (hleftmost : ∀ j < i, ⟨caption.row.toNat, caption.col.toNat + j⟩ ∉ taken) :
      Defect taken caption (.captionOverlap caption.row.toNat (caption.col.toNat + i))

/-- No caption of a list has a defect where those before it are. -/
def Flawless (captions : List Caption) : Prop :=
  ∀ before caption after, captions = before ++ caption :: after →
    ∀ error, ¬caption.Defect ((before.flatMap lettering).map LiteralCell.cell) error

end Caption

namespace Layout

variable {layout : Layout} {caption : Caption} {captions : List Caption} {failure : Failure}

/-! ## The first defect -/

theorem getElem_cells {i : Nat} (hi : i < caption.cells.length) :
    (caption.cells[i]).cell = ⟨caption.row.toNat, caption.col.toNat + i⟩ := by
  simp [Caption.cells]

theorem mem_columnsOn_iff_mem_map {row col : Nat} :
    col ∈ layout.columnsOn row ↔ ⟨row, col⟩ ∈ layout.cells.map LiteralCell.cell := by
  rw [mem_columnsOn_iff, List.mem_map]

theorem find?_taken_eq_some_iff {literal : LiteralCell} :
    caption.cells.find? (fun l ↦ l.cell.col ∈ layout.columnsOn caption.row.toNat) = some literal ↔
      ∃ i, ∃ hi : i < caption.cells.length, caption.cells[i] = literal ∧
        ⟨caption.row.toNat, caption.col.toNat + i⟩ ∈ layout.cells.map LiteralCell.cell ∧
        ∀ j < i, ⟨caption.row.toNat, caption.col.toNat + j⟩ ∉
          layout.cells.map LiteralCell.cell := by
  rw [List.find?_eq_some_iff_getElem]
  constructor
  · rintro ⟨htaken, i, hi, rfl, hleft⟩
    refine ⟨i, hi, rfl, ?_, fun j hj ↦ ?_⟩
    · rwa [decide_eq_true_eq, getElem_cells, mem_columnsOn_iff_mem_map] at htaken
    · have hfree := hleft j hj
      rwa [Bool.not_eq_true', decide_eq_false_iff_not, getElem_cells,
        mem_columnsOn_iff_mem_map] at hfree
  · rintro ⟨i, hi, rfl, htaken, hleft⟩
    refine ⟨?_, i, hi, rfl, fun j hj ↦ ?_⟩
    · rwa [decide_eq_true_eq, getElem_cells, mem_columnsOn_iff_mem_map]
    · rw [Bool.not_eq_true', decide_eq_false_iff_not, getElem_cells, mem_columnsOn_iff_mem_map]
      exact hleft j hj

/-- A caption with a defect is refused with the error of the defect. -/
theorem add_eq_refuse_of_defect {error : CompileError}
    (h : caption.Defect (layout.cells.map LiteralCell.cell) error) :
    layout.add caption = refuse error := by
  cases h with
  | @nonAscii i c hchar hc hfirst =>
    obtain ⟨hi, hget⟩ := List.getElem?_eq_some_iff.mp hchar
    have hfind : caption.text.toList.find? (fun c ↦ 128 ≤ c.toNat) = some c := by
      refine List.find?_eq_some_iff_getElem.mpr ⟨by simpa using hc, i, hi, hget, fun j hj ↦ ?_⟩
      have hlt := hfirst j hj _ (List.getElem?_eq_getElem (Nat.lt_trans hj hi))
      simpa using hlt
    rw [add, hfind]
  | overflow hascii hroom =>
    rw [add, (find?_ascii_eq_none_iff caption).mpr hascii]
    exact if_pos hroom
  | @overlap i hdrawable hi htaken hleftmost =>
    have hlength : i < caption.cells.length := caption.length_cells ▸ hi
    have hroom : ¬(gridColumns ≤ caption.col.toNat ∨
        gridColumns < caption.col.toNat + caption.text.length) := by
      have hcol := hdrawable.col_lt
      have hend := hdrawable.end_le
      omega
    rw [add, (find?_ascii_eq_none_iff caption).mpr hdrawable.ascii]
    dsimp only
    rw [if_neg hroom, find?_taken_eq_some_iff.mpr ⟨i, hlength, rfl, htaken, hleftmost⟩]
    dsimp only
    rw [getElem_cells]

/-- Only a defect keeps a caption from being added. -/
theorem exists_defect_of_add (h : layout.add caption = .error failure) :
    ∃ error, caption.Defect (layout.cells.map LiteralCell.cell) error ∧
      failure = .refusal error := by
  unfold add at h
  split at h
  next c hfind =>
    obtain ⟨hc, i, hi, hget, hfirst⟩ := List.find?_eq_some_iff_getElem.mp hfind
    refine ⟨_, .nonAscii (List.getElem?_eq_some_iff.mpr ⟨hi, hget⟩) (by simpa using hc) ?_,
      (Except.error.inj h).symm⟩
    intro j hj a ha
    obtain ⟨hlt, rfl⟩ := List.getElem?_eq_some_iff.mp ha
    simpa using hfirst j hj
  next hfind =>
    have hascii := (find?_ascii_eq_none_iff caption).mp hfind
    split at h
    next hroom => exact ⟨_, .overflow hascii hroom, (Except.error.inj h).symm⟩
    next hroom =>
      have hdrawable : caption.Drawable := ⟨hascii, by omega, by omega⟩
      dsimp only at h
      split at h
      next literal hshared =>
        obtain ⟨i, hi, rfl, htaken, hleftmost⟩ := find?_taken_eq_some_iff.mp hshared
        rw [getElem_cells] at h
        have hlength : i < caption.text.length := caption.length_cells ▸ hi
        exact ⟨_, .overlap hdrawable hlength htaken hleftmost, (Except.error.inj h).symm⟩
      next => exact absurd h (Outcome.pure_ne_error _ _)

/-- The captions before the one that is refused have been laid out. -/
theorem ofCaptions_eq_error_iff_add : ofCaptions captions = .error failure ↔
    ∃ before caption after error, captions = before ++ caption :: after ∧
      (∃ layout, ofCaptions before = .ok layout) ∧
      caption.Defect ((before.flatMap Caption.lettering).map LiteralCell.cell) error ∧
        failure = .refusal error := by
  rw [ofCaptions, Outcome.foldlM_eq_error_iff]
  have hcells : ∀ before layout, ofCaptions before = .ok layout →
      layout.cells = before.flatMap Caption.lettering := by
    intro before layout h
    rw [ofCaptions_cells h, Caption.flatMap_lettering_eq (ofCaptions_eq_ok_iff.mp h).1]
  constructor
  · rintro ⟨before, caption, after, layout, hcaptions, hbefore, hadd⟩
    obtain ⟨error, hdefect, hfailure⟩ := exists_defect_of_add hadd
    rw [hcells before layout hbefore] at hdefect
    exact ⟨before, caption, after, error, hcaptions, ⟨layout, hbefore⟩, hdefect, hfailure⟩
  · rintro ⟨before, caption, after, error, hcaptions, ⟨layout, hbefore⟩, hdefect, rfl⟩
    rw [← hcells before layout hbefore] at hdefect
    exact ⟨before, caption, after, layout, hcaptions, hbefore, add_eq_refuse_of_defect hdefect⟩

/-- Captions are laid out if none of them has a defect where those before it are. -/
theorem exists_ofCaptions_iff_flawless :
    (∃ layout, ofCaptions captions = .ok layout) ↔ Caption.Flawless captions := by
  constructor
  · rintro ⟨layout, h⟩ before caption after rfl error hdefect
    obtain ⟨hdrawable, hnodup, -⟩ := ofCaptions_eq_ok_iff.mp h
    rw [List.flatMap_append, List.map_append] at hnodup
    have hbefore : ofCaptions before = .ok ⟨before.flatMap Caption.cells⟩ :=
      ofCaptions_eq_ok_iff.mpr ⟨fun other hother ↦ hdrawable other (List.mem_append_left _ hother),
        (List.nodup_append.mp hnodup).1, rfl⟩
    have herror := ofCaptions_eq_error_iff_add.mpr
      ⟨before, caption, after, error, rfl, ⟨_, hbefore⟩, hdefect, rfl⟩
    rw [h] at herror
    cases herror
  · intro hflawless
    cases h : ofCaptions captions with
    | ok layout => exact ⟨layout, rfl⟩
    | error failure =>
      obtain ⟨before, caption, after, error, hcaptions, -, hdefect, -⟩ :=
        ofCaptions_eq_error_iff_add.mp h
      exact absurd hdefect (hflawless before caption after hcaptions error)

theorem ofCaptions_eq_error_iff : ofCaptions captions = .error failure ↔
    ∃ before caption after error, captions = before ++ caption :: after ∧
      Caption.Flawless before ∧
      caption.Defect ((before.flatMap Caption.lettering).map LiteralCell.cell) error ∧
        failure = .refusal error := by
  simp only [ofCaptions_eq_error_iff_add, exists_ofCaptions_iff_flawless]

end Layout

/-! ## One character after the other -/

instance : Std.TransCmp Cell.order :=
  inferInstanceAs (Std.TransCmp (compareLex (compareOn Cell.row) (compareOn Cell.col)))

theorem Cell.order_eq_iff {a b : Cell} : a.order b = .eq ↔ a = b := by
  rw [order, Ordering.then_eq_eq, Nat.compare_eq_eq, Nat.compare_eq_eq, ← Cell.mk.injEq]

/-- Characters in the order in which they are placed, and a map of what is on each cell. -/
structure Drawing where
  cells : List LiteralCell := []
  occupied : Std.TreeMap Cell UInt8 Cell.order := ∅

namespace Drawing

def layout (drawing : Drawing) : Layout := ⟨drawing.cells⟩

def place (drawing : Drawing) (literal : LiteralCell) : Outcome Drawing :=
  if literal.cell ∈ drawing.occupied then
    refuse (.captionOverlap literal.cell.row literal.cell.col)
  else pure ⟨drawing.cells ++ [literal], drawing.occupied.insert literal.cell literal.byte⟩

def add (drawing : Drawing) (caption : Caption) : Outcome Drawing :=
  match caption.text.toList.find? fun c ↦ 128 ≤ c.toNat with
  | some c => refuse (.nonAsciiCaption caption.text c)
  | none =>
    if gridColumns ≤ caption.col.toNat ∨ gridColumns < caption.col.toNat + caption.text.length then
      refuse (.captionOverflow caption.text caption.row caption.col)
    else caption.lettering.foldlM place drawing

def ofCaptions (captions : List Caption) : Outcome Drawing := captions.foldlM add {}

def InStep (drawing : Drawing) : Prop :=
  ∀ literal : LiteralCell,
    drawing.occupied[literal.cell]? = some literal.byte ↔ literal ∈ drawing.cells

variable {drawing next : Drawing} {literal : LiteralCell} {literals : List LiteralCell}

theorem InStep.mem_occupied_iff (h : drawing.InStep) (cell : Cell) :
    cell ∈ drawing.occupied ↔ ∃ literal ∈ drawing.cells, literal.cell = cell := by
  rw [← Std.TreeMap.isSome_getElem?_iff_mem, Option.isSome_iff_exists]
  constructor
  · rintro ⟨byte, hbyte⟩
    exact ⟨⟨cell, byte⟩, (h ⟨cell, byte⟩).mp hbyte, rfl⟩
  · rintro ⟨literal, hliteral, rfl⟩
    exact ⟨literal.byte, (h literal).mpr hliteral⟩

theorem InStep.contains_eq (h : drawing.InStep) (cell : Cell) :
    drawing.occupied.contains cell = drawing.layout.covers cell := by
  rw [Bool.eq_iff_iff, Std.TreeMap.contains_iff_mem, h.mem_occupied_iff, Layout.covers_iff]
  rfl

theorem mem_insert_iff (cell : Cell) :
    cell ∈ drawing.occupied.insert literal.cell literal.byte ↔
      literal.cell = cell ∨ cell ∈ drawing.occupied := by
  rw [Std.TreeMap.mem_insert, Cell.order_eq_iff]

/-- A character on a free cell goes into the list and into the map. -/
theorem InStep.place (h : drawing.InStep) (hfree : literal.cell ∉ drawing.occupied) :
    InStep ⟨drawing.cells ++ [literal], drawing.occupied.insert literal.cell literal.byte⟩ := by
  intro other
  rw [Std.TreeMap.getElem?_insert, List.mem_append, List.mem_singleton, ← h other]
  simp only [Cell.order_eq_iff]
  by_cases hcell : literal.cell = other.cell
  · rw [if_pos hcell]
    -- the cell was free, so no byte on it has been placed before
    have hnone : drawing.occupied[other.cell]? ≠ some other.byte := by
      intro hsome
      rw [hcell] at hfree
      exact hfree (Std.TreeMap.mem_iff_isSome_getElem?.mpr (by rw [hsome]; rfl))
    constructor
    · intro hbyte
      right
      obtain ⟨cell, byte⟩ := other
      obtain ⟨cell', byte'⟩ := literal
      obtain rfl := hcell
      obtain rfl := Option.some.inj hbyte
      rfl
    · rintro (hsome | rfl)
      · exact absurd hsome hnone
      · rfl
  · rw [if_neg hcell, or_iff_left]
    rintro rfl
    exact hcell rfl

/-- A drawing in step with the layout of its characters, or the same failure. -/
inductive Agrees : Outcome Drawing → Outcome Layout → Prop
  | ok {drawing : Drawing} (h : drawing.InStep) : Agrees (.ok drawing) (.ok drawing.layout)
  | error (failure : Failure) : Agrees (.error failure) (.error failure)

/-- Characters of different cells are placed if no cell is taken, and otherwise the first one that
is taken is the error. -/
theorem foldlM_place_agrees (h : drawing.InStep) (hnodup : (literals.map LiteralCell.cell).Nodup) :
    Agrees (literals.foldlM place drawing)
      (match literals.find? fun l ↦ l.cell ∈ drawing.occupied with
      | some l => refuse (.captionOverlap l.cell.row l.cell.col)
      | none => pure ⟨drawing.cells ++ literals⟩) := by
  induction literals generalizing drawing with
  | nil =>
    rw [List.append_nil]
    exact .ok h
  | cons literal rest ih =>
    rw [List.map_cons, List.nodup_cons] at hnodup
    obtain ⟨hfirst, hrest⟩ := hnodup
    rw [List.foldlM_cons, place]
    by_cases htaken : literal.cell ∈ drawing.occupied
    · rw [if_pos htaken, List.find?_cons_of_pos (by simpa using htaken)]
      exact .error _
    · -- no later character is on this cell, so the rest meets the same taken cells as before
      have hsame : rest.find? (fun l ↦ l.cell ∈ drawing.occupied) = rest.find? fun l ↦
          l.cell ∈ drawing.occupied.insert literal.cell literal.byte := by
        apply List.find?_congr
        intro other hother
        have hne : literal.cell ≠ other.cell := fun hcell ↦
          hfirst (List.mem_map.mpr ⟨other, hother, hcell.symm⟩)
        rw [decide_eq_decide, mem_insert_iff, or_iff_right hne]
      have hagrees := ih (h.place htaken) hrest
      rw [← hsame, List.append_assoc, List.singleton_append] at hagrees
      rw [if_neg htaken, List.find?_cons_of_neg (by simpa using htaken)]
      exact hagrees

/-- Adding a caption character by character does what adding it at once does. -/
theorem add_agrees (h : drawing.InStep) (caption : Caption) :
    Agrees (drawing.add caption) (drawing.layout.add caption) := by
  unfold add Layout.add
  cases hfind : caption.text.toList.find? fun c ↦ 128 ≤ c.toNat with
  | some c => exact .error _
  | none =>
    dsimp only
    by_cases hroom : gridColumns ≤ caption.col.toNat ∨
        gridColumns < caption.col.toNat + caption.text.length
    · rw [if_pos hroom, if_pos hroom]
      exact .error _
    · have hagrees := foldlM_place_agrees h caption.cells_nodup
      have hsame : caption.cells.find? (fun l ↦ l.cell ∈ drawing.occupied) =
          caption.cells.find? fun l ↦
            l.cell.col ∈ drawing.layout.columnsOn caption.row.toNat := by
        apply List.find?_congr
        intro literal hliteral
        obtain ⟨i, c, -, rfl⟩ := (caption.mem_cells_iff literal).mp hliteral
        rw [decide_eq_decide, h.mem_occupied_iff, Layout.mem_columnsOn_iff]
        rfl
      rw [hsame] at hagrees
      rw [if_neg hroom, if_neg hroom,
        Caption.lettering_eq ((Layout.find?_ascii_eq_none_iff caption).mp hfind)]
      exact hagrees

theorem foldlM_add_agrees (h : drawing.InStep) (captions : List Caption) :
    Agrees (captions.foldlM add drawing) (captions.foldlM Layout.add drawing.layout) := by
  induction captions generalizing drawing with
  | nil => exact .ok h
  | cons caption rest ih =>
    rw [List.foldlM_cons, List.foldlM_cons]
    have hstep := add_agrees h caption
    generalize drawing.add caption = drawn at hstep ⊢
    generalize drawing.layout.add caption = added at hstep ⊢
    cases hstep with
    | ok hnext => exact ih hnext
    | error failure => exact .error failure

theorem ofCaptions_agrees (captions : List Caption) :
    Agrees (ofCaptions captions) (Layout.ofCaptions captions) := by
  have hempty : InStep {} := by simp [InStep]
  exact foldlM_add_agrees hempty captions

theorem ofCaptions_eq_error_iff {captions : List Caption} {failure : Failure} :
    ofCaptions captions = .error failure ↔ Layout.ofCaptions captions = .error failure := by
  have hagrees := ofCaptions_agrees captions
  generalize ofCaptions captions = drawn at hagrees ⊢
  generalize Layout.ofCaptions captions = laidOut at hagrees ⊢
  cases hagrees with
  | ok h => simp
  | error other => simp

end Drawing

/-- Every caption can be drawn, and no two characters, of one caption or of two, are on one cell. -/
def Caption.Drawn (captions : List Caption) : Prop :=
  (∀ caption ∈ captions, caption.Drawable) ∧
    ((captions.flatMap lettering).map LiteralCell.cell).Nodup

namespace Layout

variable {captions : List Caption} {layout : Layout}

structure Shows (captions : List Caption) (layout : Layout) : Prop where
  /-- The bytes of the captions, in their order. -/
  cells : layout.cells = captions.flatMap Caption.lettering
  onGrid : ∀ literal ∈ layout.cells, literal.cell.col < gridColumns
  covers : ∀ cell, layout.covers cell = true ↔ ∃ literal ∈ layout.cells, literal.cell = cell
  /-- Placing the bytes one after the other ends with the same characters, and with a map of just
  the cells that are covered. -/
  occupied : ∃ drawing, Drawing.ofCaptions captions = .ok drawing ∧ drawing.layout = layout ∧
    drawing.InStep ∧ ∀ cell, drawing.occupied.contains cell = layout.covers cell

theorem ofCaptions_eq_ok_iff_drawn : ofCaptions captions = .ok layout ↔
    Caption.Drawn captions ∧ layout = ⟨captions.flatMap Caption.cells⟩ := by
  rw [ofCaptions_eq_ok_iff, Caption.Drawn, and_assoc]
  exact and_congr_right fun hdrawable ↦ by rw [Caption.flatMap_lettering_eq hdrawable]

theorem shows_of_ofCaptions (h : ofCaptions captions = .ok layout) : layout.Shows captions where
  cells := by rw [ofCaptions_cells h, Caption.flatMap_lettering_eq (ofCaptions_eq_ok_iff.mp h).1]
  onGrid := ofCaptions_col_lt h
  covers := layout.covers_iff
  occupied := by
    have hagrees := Drawing.ofCaptions_agrees captions
    rw [h] at hagrees
    generalize Drawing.ofCaptions captions = drawn at hagrees ⊢
    cases hagrees with
    | ok hstep => exact ⟨_, rfl, rfl, hstep, hstep.contains_eq⟩

/-- Captions are laid out if all of them can be drawn together, and then as their bytes one after
the other.  Otherwise the first caption that has a defect where those before it are decides the
error, and there is no fault. -/
theorem ofCaptions_decided (captions : List Caption) :
    ((∃ layout, ofCaptions captions = .ok layout) ↔ Caption.Drawn captions) ∧
    (∀ layout, ofCaptions captions = .ok layout ↔ Caption.Drawn captions ∧ layout.Shows captions) ∧
    ∀ failure,
      (ofCaptions captions = .error failure ↔
        ∃ before caption after error, captions = before ++ caption :: after ∧
          Caption.Flawless before ∧
          caption.Defect ((before.flatMap Caption.lettering).map LiteralCell.cell) error ∧
          failure = .refusal error) ∧
      (Drawing.ofCaptions captions = .error failure ↔ ofCaptions captions = .error failure) := by
  refine ⟨?_, fun layout ↦ ?_, fun failure ↦ ?_⟩
  · simp only [ofCaptions_eq_ok_iff_drawn, exists_and_left, exists_eq, and_true]
  · constructor
    · intro h
      exact ⟨(ofCaptions_eq_ok_iff_drawn.mp h).1, shows_of_ofCaptions h⟩
    · rintro ⟨hdrawn, hshows⟩
      refine ofCaptions_eq_ok_iff_drawn.mpr ⟨hdrawn, ?_⟩
      rw [← Caption.flatMap_lettering_eq hdrawn.1, ← hshows.cells]
  · exact ⟨ofCaptions_eq_error_iff, Drawing.ofCaptions_eq_error_iff⟩

/-- The second caption shares a cell, but also leaves its row; the third is not looked at. -/
example : ofCaptions [⟨"AB", 2, 57⟩, ⟨"CDEF", 2, 58⟩, ⟨"é", 2, 57⟩] =
    refuse (.captionOverflow "CDEF" 2 58) := rfl

end Layout

end InfoScreen
