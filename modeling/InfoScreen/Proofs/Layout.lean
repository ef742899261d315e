import InfoScreen.Layout
import Mathlib.Data.List.Nodup
import InfoScreen.Proofs.Outcome

/-!
# The cells of accepted captions

Captions are accepted if each of them can be drawn and no two of their characters are on one cell,
and then the layout holds the characters of the captions, one after the other.  Whether a cell is
under a caption can therefore be said in terms of the captions alone.
-/

namespace InfoScreen

namespace Cell

/-- Two cells on the grid have one address only if they are the same cell. -/
theorem address_inj {a b : Cell} (ha : a.col < gridColumns) (hb : b.col < gridColumns)
    (h : a.address = b.address) : a = b := by
  obtain ⟨row, col⟩ := a
  obtain ⟨row', col'⟩ := b
  simp only [address, gridColumns] at ha hb h
  rw [mk.injEq]
  omega

/-- A cell on the grid comes before every cell of a later row. -/
theorem address_lt_of_row_lt {a b : Cell} (ha : a.col < gridColumns) (h : a.row < b.row) :
    a.address < b.address := by
  simp only [address, gridColumns] at ha ⊢
  omega

end Cell

namespace Caption

theorem mem_cells_iff (caption : Caption) (literal : LiteralCell) :
    literal ∈ caption.cells ↔ ∃ i c, caption.text.toList[i]? = some c ∧
      literal = ⟨⟨caption.row.toNat, caption.col.toNat + i⟩, c.toUInt8⟩ := by
  rw [cells, List.mem_map]
  constructor
  · rintro ⟨⟨c, i⟩, hmem, rfl⟩
    exact ⟨i, c, List.mem_zipIdx_iff_getElem?.mp hmem, rfl⟩
  · rintro ⟨i, c, hc, rfl⟩
    exact ⟨(c, i), List.mem_zipIdx_iff_getElem?.mpr hc, rfl⟩

/-- The caption is ASCII, starts on the grid and stays on its row. -/
structure Drawable (caption : Caption) : Prop where
  ascii : ∀ c ∈ caption.text.toList, c.toNat < 128
  col_lt : caption.col.toNat < gridColumns
  end_le : caption.col.toNat + caption.text.length ≤ gridColumns

theorem Drawable.cell_col_lt {caption : Caption} (h : caption.Drawable) :
    ∀ literal ∈ caption.cells, literal.cell.col < gridColumns := by
  intro literal hliteral
  obtain ⟨i, c, hc, rfl⟩ := (caption.mem_cells_iff literal).mp hliteral
  have hi := (List.getElem?_eq_some_iff.mp hc).1
  have hend := h.end_le
  rw [String.length_toList] at hi
  dsimp only
  omega

theorem cells_nodup (caption : Caption) : (caption.cells.map LiteralCell.cell).Nodup := by
  rw [cells, List.map_map, List.Nodup, List.pairwise_map, List.pairwise_iff_getElem]
  intro i j hi hj hij
  simp only [Function.comp_apply, List.getElem_zipIdx, ne_eq, Cell.mk.injEq, true_and]
  omega

end Caption

namespace Layout

theorem covers_iff (layout : Layout) (cell : Cell) :
    layout.covers cell = true ↔ ∃ literal ∈ layout.cells, literal.cell = cell := by
  simp [covers]

theorem mem_columnsOn_iff (layout : Layout) (row col : Nat) :
    col ∈ layout.columnsOn row ↔ ∃ literal ∈ layout.cells, literal.cell = ⟨row, col⟩ := by
  simp only [columnsOn, List.mem_map, List.mem_filter, decide_eq_true_eq]
  constructor
  · rintro ⟨literal, ⟨hmem, hrow⟩, hcol⟩
    exact ⟨literal, hmem, by rw [← hrow, ← hcol]⟩
  · rintro ⟨literal, hmem, hcell⟩
    exact ⟨literal, ⟨hmem, by rw [hcell]⟩, by rw [hcell]⟩

theorem find?_ascii_eq_none_iff (caption : Caption) :
    caption.text.toList.find? (fun c ↦ 128 ≤ c.toNat) = none ↔
      ∀ c ∈ caption.text.toList, c.toNat < 128 := by
  simp

/-- A caption's characters are all in one row, so the columns that are taken there tell whether one
of them meets a character of the layout. -/
theorem find?_taken_eq_none_iff (layout : Layout) (caption : Caption) :
    caption.cells.find? (fun l ↦ l.cell.col ∈ layout.columnsOn caption.row.toNat) = none ↔
      ∀ literal ∈ caption.cells, ∀ other ∈ layout.cells, other.cell ≠ literal.cell := by
  rw [List.find?_eq_none]
  refine forall₂_congr fun literal hliteral ↦ ?_
  obtain ⟨i, c, -, rfl⟩ := (caption.mem_cells_iff literal).mp hliteral
  rw [decide_eq_true_eq, mem_columnsOn_iff]
  simp only [not_exists, not_and]

/-- What it takes to add a caption, and what the layout holds afterwards. -/
theorem add_eq_ok_iff {layout next : Layout} {caption : Caption} :
    layout.add caption = .ok next ↔ caption.Drawable ∧
      (∀ literal ∈ caption.cells, ∀ other ∈ layout.cells, other.cell ≠ literal.cell) ∧
      next = ⟨layout.cells ++ caption.cells⟩ := by
  unfold add
  split
  next c hfind =>
    refine ⟨fun h ↦ absurd h (Outcome.refuse_ne_ok _ _), fun h ↦ ?_⟩
    rw [(find?_ascii_eq_none_iff caption).mpr h.1.ascii] at hfind
    cases hfind
  next hfind =>
    rw [Outcome.guard_refuse_eq_ok]
    dsimp only
    split
    next literal htaken =>
      refine ⟨fun h ↦ absurd h.2 (Outcome.refuse_ne_ok _ _), fun h ↦ ?_⟩
      rw [(find?_taken_eq_none_iff layout caption).mpr h.2.1] at htaken
      cases htaken
    next hfound =>
      rw [Outcome.pure_eq_ok]
      constructor
      · rintro ⟨hroom, rfl⟩
        refine ⟨⟨?_, by omega, by omega⟩, (find?_taken_eq_none_iff layout caption).mp hfound, rfl⟩
        exact (find?_ascii_eq_none_iff caption).mp hfind
      · rintro ⟨hdrawable, -, rfl⟩
        have hcol := hdrawable.col_lt
        have hend := hdrawable.end_le
        exact ⟨by omega, rfl⟩

theorem foldlM_add_eq_ok_iff {captions : List Caption} {layout last : Layout}
    (hnodup : (layout.cells.map LiteralCell.cell).Nodup) :
    captions.foldlM add layout = .ok last ↔ (∀ caption ∈ captions, caption.Drawable) ∧
      ((layout.cells ++ captions.flatMap Caption.cells).map LiteralCell.cell).Nodup ∧
      last = ⟨layout.cells ++ captions.flatMap Caption.cells⟩ := by
  induction captions generalizing layout with
  | nil =>
    rw [List.foldlM_nil, Outcome.pure_eq_ok]
    simp [hnodup, eq_comm]
  | cons caption rest ih =>
    rw [List.foldlM_cons, Outcome.bind_eq_ok, List.forall_mem_cons, List.flatMap_cons,
      ← List.append_assoc]
    have hfresh : ((layout.cells ++ caption.cells).map LiteralCell.cell).Nodup ↔
        ∀ literal ∈ caption.cells, ∀ other ∈ layout.cells, other.cell ≠ literal.cell := by
      rw [List.map_append, List.nodup_append]
      simp only [hnodup, caption.cells_nodup, true_and, List.forall_mem_map]
      exact ⟨fun h literal hliteral other hother ↦ h other hother literal hliteral,
        fun h other hother literal hliteral ↦ h literal hliteral other hother⟩
    constructor
    · rintro ⟨next, hnext, hrest⟩
      obtain ⟨hdrawable, hfree, rfl⟩ := add_eq_ok_iff.mp hnext
      obtain ⟨hrest, hall, hlast⟩ := (ih (hfresh.mpr hfree)).mp hrest
      exact ⟨⟨hdrawable, hrest⟩, hall, hlast⟩
    · rintro ⟨⟨hdrawable, hrest⟩, hall, hlast⟩
      have hnext : ((layout.cells ++ caption.cells).map LiteralCell.cell).Nodup := by
        rw [List.map_append] at hall
        exact (List.nodup_append.mp hall).1
      refine ⟨_, add_eq_ok_iff.mpr ⟨hdrawable, hfresh.mp hnext, rfl⟩, ?_⟩
      exact (ih hnext).mpr ⟨hrest, hall, hlast⟩

variable {captions : List Caption} {layout : Layout}

/-- Captions are laid out if each of them can be drawn and no two characters, of one caption or of
two, are on one cell. -/
theorem ofCaptions_eq_ok_iff :
    ofCaptions captions = .ok layout ↔ (∀ caption ∈ captions, caption.Drawable) ∧
      ((captions.flatMap Caption.cells).map LiteralCell.cell).Nodup ∧
      layout = ⟨captions.flatMap Caption.cells⟩ :=
  foldlM_add_eq_ok_iff List.nodup_nil

theorem ofCaptions_cells (h : ofCaptions captions = .ok layout) :
    layout.cells = captions.flatMap Caption.cells := by
  obtain ⟨-, -, rfl⟩ := ofCaptions_eq_ok_iff.mp h
  rfl

theorem ofCaptions_col_lt (h : ofCaptions captions = .ok layout) :
    ∀ literal ∈ layout.cells, literal.cell.col < gridColumns := by
  obtain ⟨hdrawable, -, rfl⟩ := ofCaptions_eq_ok_iff.mp h
  intro literal hliteral
  obtain ⟨caption, hcaption, hliteral⟩ := List.mem_flatMap.mp hliteral
  exact (hdrawable caption hcaption).cell_col_lt literal hliteral

theorem ofCaptions_nodup (h : ofCaptions captions = .ok layout) :
    (layout.cells.map LiteralCell.cell).Nodup := by
  obtain ⟨-, hnodup, rfl⟩ := ofCaptions_eq_ok_iff.mp h
  exact hnodup

/-- No two characters are in one slot. -/
theorem ofCaptions_distinct (h : ofCaptions captions = .ok layout) :
    layout.cells.Pairwise fun a b ↦ a.cell.address ≠ b.cell.address := by
  have hnodup := List.pairwise_map.mp (ofCaptions_nodup h)
  apply hnodup.imp_of_mem
  intro a b ha hb hne haddress
  apply hne
  exact Cell.address_inj (ofCaptions_col_lt h a ha) (ofCaptions_col_lt h b hb) haddress

end Layout

end InfoScreen
