import InfoScreen.Proofs.Traffic

/-!
# Captions listed in another way

Captions can be listed in another order, cut into pieces that follow each other, and joined again.
A layout is built from one caption after the other and stops at the first that it refuses, but
whether all of them are accepted depends only on their characters and where these are, and so does
everything that is made of the layout.  So nothing that a screen produces depends on how its
captions are listed.
-/

namespace InfoScreen

namespace Caption

def append (caption : Caption) (text : String) : Caption :=
  { caption with text := caption.text ++ text }

/-- The caption of a text that begins in the column where another caption ends. -/
def next (caption : Caption) (text : String) : Caption :=
  ⟨text, caption.row, UInt16.ofNat (caption.col.toNat + caption.text.length)⟩

/-- The second list has the captions of the first in some order, some of them cut in two or joined
with the caption that goes on where they end. -/
inductive Relisted : List Caption → List Caption → Prop
  | perm {captions others : List Caption} (h : captions.Perm others) : Relisted captions others
  | cut (before after : List Caption) (caption : Caption) (text : String)
      (hcaption : caption.text ≠ "") (htext : text ≠ "") :
      Relisted (before ++ caption.append text :: after)
        (before ++ caption :: caption.next text :: after)
  | join (before after : List Caption) (caption : Caption) (text : String)
      (hcaption : caption.text ≠ "") (htext : text ≠ "") :
      Relisted (before ++ caption :: caption.next text :: after)
        (before ++ caption.append text :: after)
  | trans {captions between others : List Caption} (hfirst : Relisted captions between)
      (hrest : Relisted between others) : Relisted captions others

variable {caption : Caption} {text : String}

/-- The column behind a caption on the grid is not too large for a column number. -/
theorem col_next (caption : Caption) (text : String)
    (hend : caption.col.toNat + caption.text.length ≤ gridColumns) :
    (caption.next text).col.toNat = caption.col.toNat + caption.text.length :=
  UInt16.toNat_ofNat_of_lt' (Nat.lt_of_le_of_lt hend (by decide))

/-- Where a caption ends on its row, a text that is not empty can go on exactly if both together
can be drawn. -/
theorem drawable_append_iff (htext : text ≠ "") :
    (caption.append text).Drawable ↔ caption.Drawable ∧ (caption.next text).Drawable := by
  have hpos : 0 < text.length := Nat.pos_of_ne_zero fun hzero ↦
    htext (String.length_eq_zero_iff.mp hzero)
  have hlength : (caption.append text).text.length = caption.text.length + text.length :=
    String.length_append _ _
  have hascii : (∀ c ∈ (caption.append text).text.toList, c.toNat < 128) ↔
      (∀ c ∈ caption.text.toList, c.toNat < 128) ∧ ∀ c ∈ text.toList, c.toNat < 128 := by
    rw [append, String.toList_append, List.forall_mem_append]
  constructor
  · rintro ⟨hchars, hstart, hend⟩
    obtain ⟨hfirst, hsecond⟩ := hascii.mp hchars
    rw [hlength] at hend
    change caption.col.toNat + _ ≤ _ at hend
    have hcol := caption.col_next text (by omega)
    refine ⟨⟨hfirst, hstart, by omega⟩, hsecond, ?_, ?_⟩
    · rw [hcol]
      omega
    · rw [hcol]
      change _ + text.length ≤ _
      omega
  · rintro ⟨hfirst, hsecond⟩
    have hend := hsecond.end_le
    rw [caption.col_next text hfirst.end_le] at hend
    refine ⟨hascii.mpr ⟨hfirst.ascii, hsecond.ascii⟩, hfirst.col_lt, ?_⟩
    rw [hlength, ← Nat.add_assoc]
    exact hend

/-- The characters stay where they are. -/
theorem cells_append (h : caption.Drawable) :
    (caption.append text).cells = caption.cells ++ (caption.next text).cells := by
  have htext : (caption.append text).text.toList = caption.text.toList ++ text.toList :=
    String.toList_append
  rw [cells, htext, List.zipIdx_append, List.map_append]
  congr 1
  rw [cells, caption.col_next text h.end_le, Nat.zero_add, String.length_toList,
    List.zipIdx_eq_map_add, List.map_map]
  apply List.map_congr_left
  rintro ⟨c, i⟩ -
  simp [append, next, Nat.add_assoc]

/-- Captions that are cut or joined are all drawable still, with the characters where they were. -/
theorem drawn_append (before after : List Caption) (caption : Caption) (htext : text ≠ "") :
    ((∀ other ∈ before ++ caption.append text :: after, other.Drawable) ↔
      ∀ other ∈ before ++ caption :: caption.next text :: after, other.Drawable) ∧
    (caption.Drawable → (before ++ caption.append text :: after).flatMap cells =
      (before ++ caption :: caption.next text :: after).flatMap cells) := by
  refine ⟨?_, fun hcaption ↦ ?_⟩
  · simp only [List.forall_mem_append, List.forall_mem_cons, drawable_append_iff htext, and_assoc]
  · simp only [List.flatMap_append, List.flatMap_cons, cells_append hcaption, List.append_assoc]

/-- However captions are listed, they can be drawn, and their characters are the same. -/
theorem Relisted.drawn {captions others : List Caption} (h : Relisted captions others)
    (hdrawable : ∀ caption ∈ captions, caption.Drawable) :
    (∀ caption ∈ others, caption.Drawable) ∧
      (captions.flatMap cells).Perm (others.flatMap cells) := by
  induction h with
  | perm hperm =>
    exact ⟨fun caption hcaption ↦ hdrawable caption (hperm.mem_iff.mpr hcaption),
      hperm.flatMap_right cells⟩
  | cut before after caption text _ htext =>
    obtain ⟨hiff, hcells⟩ := drawn_append before after caption htext
    have hothers := hiff.mp hdrawable
    exact ⟨hothers, .of_eq (hcells (hothers caption (by simp)))⟩
  | join before after caption text _ htext =>
    obtain ⟨hiff, hcells⟩ := drawn_append before after caption htext
    exact ⟨hiff.mpr hdrawable, .of_eq (hcells (hdrawable caption (by simp))).symm⟩
  | trans _ _ ihfirst ihrest =>
    obtain ⟨hbetween, hfirst⟩ := ihfirst hdrawable
    obtain ⟨hothers, hrest⟩ := ihrest hbetween
    exact ⟨hothers, hfirst.trans hrest⟩

end Caption

/-! ## The same characters in another order -/

/-- Captions that are accepted are accepted however they are listed. -/
theorem Layout.ofCaptions_relisted {captions others : List Caption} {layout : Layout}
    (h : ofCaptions captions = .ok layout) (hrelisted : Caption.Relisted captions others) :
    ∃ other, ofCaptions others = .ok other ∧ layout.cells.Perm other.cells := by
  obtain ⟨hdrawable, hnodup, rfl⟩ := ofCaptions_eq_ok_iff.mp h
  obtain ⟨hothers, hcells⟩ := hrelisted.drawn hdrawable
  refine ⟨_, ofCaptions_eq_ok_iff.mpr ⟨hothers, ?_, rfl⟩, hcells⟩
  exact (hcells.map LiteralCell.cell).nodup_iff.mp hnodup

theorem Layout.mem_columnsOn_of_perm {layout other : Layout} (h : layout.cells.Perm other.cells)
    (row col : Nat) : col ∈ other.columnsOn row ↔ col ∈ layout.columnsOn row := by
  rw [mem_columnsOn_iff, mem_columnsOn_iff]
  exact exists_congr fun literal ↦ and_congr_left fun _ ↦ h.mem_iff.symm

/-- What a column does depends on which columns are under a caption, not on how they are listed. -/
theorem RowView.actionFor_congr (view : RowView) {captioned : List Nat}
    (h : ∀ col, col ∈ captioned ↔ col ∈ view.captioned) (pattern : Pattern) (col : Nat)
    (role : Role) :
    { view with captioned }.actionFor pattern col role = view.actionFor pattern col role := by
  have hcovered : { view with captioned }.covered = view.covered := by
    funext col
    rw [Bool.eq_iff_iff, covered, covered, List.contains_iff_mem, List.contains_iff_mem]
    exact h col
  have hmasked : { view with captioned }.masked = view.masked := by
    funext k
    unfold masked
    rw [hcovered]
  have hshown : { view with captioned }.shown pattern col role = view.shown pattern col role := by
    cases role <;> simp only [shown, hcovered, hmasked] <;> rfl
  have hrequested : { view with captioned }.requested role = view.requested role := by
    unfold requested
    rw [hmasked]
    rfl
  rw [actionFor, actionFor, hshown, hrequested]

/-- Characters that are on different cells can be written in any order. -/
theorem SlotMap.values_merged_of_perm {config : Config} {layout other : Layout}
    (hcells : layout.cells.Pairwise fun a b ↦ a.cell.address ≠ b.cell.address)
    (hothers : other.cells.Pairwise fun a b ↦ a.cell.address ≠ b.cell.address)
    (h : layout.cells.Perm other.cells) (scheduled : List Action) :
    (merged config other scheduled).values = (merged config layout scheduled).values := by
  apply Std.TreeMap.Equiv.values_eq
  apply Std.TreeMap.Equiv.of_forall_constGet?_eq
  intro slot
  ext action
  rw [merged, merged, getElem?_foldl_put hothers, getElem?_foldl_put hcells]
  simp only [h.mem_iff]

namespace Config

variable {config : Config} {layout other : Layout} {captions : List Caption}

theorem scheduledActions_of_perm (h : layout.cells.Perm other.cells) (rows : Nat) :
    { config with captions }.scheduledActions other rows = config.scheduledActions layout rows := by
  apply List.map_congr_left
  intro n _
  apply RowView.actionFor_congr (config.rowView layout (n / gridColumns))
  exact Layout.mem_columnsOn_of_perm h _

theorem mergedActions_of_perm (hlayout : Layout.ofCaptions config.captions = .ok layout)
    (hother : Layout.ofCaptions captions = .ok other) (h : layout.cells.Perm other.cells) :
    { config with captions }.mergedActions other = config.mergedActions layout := by
  rw [mergedActions, scheduledActions_of_perm h]
  exact SlotMap.values_merged_of_perm (Layout.ofCaptions_distinct hlayout)
    (Layout.ofCaptions_distinct hother) h _

end Config

namespace Screen

variable {config : Config} {screen : Screen} {captions : List Caption}

/-- However the captions of an accepted configuration are listed, it is accepted with the same
characters. -/
theorem ofConfig_relisted (h : ofConfig config = .ok screen)
    (hrelisted : Caption.Relisted config.captions captions) :
    ∃ other, ofConfig { config with captions } = .ok other ∧
      screen.layout.cells.Perm other.layout.cells := by
  obtain ⟨hcheck, -, hlayout, hcells⟩ := ofConfig_eq_ok_iff.mp h
  obtain ⟨other, hother, hperm⟩ := Layout.ofCaptions_relisted hlayout hrelisted
  refine ⟨⟨{ config with captions }, other⟩, ?_, hperm⟩
  apply ofConfig_eq_ok_iff.mpr
  refine ⟨hcheck, rfl, hother, ?_⟩
  rw [Outcome.forM_eq_ok_iff] at hcells ⊢
  intro literal hliteral
  exact hcells literal (hperm.mem_iff.mpr hliteral)

/-- Only the characters of the captions matter: however the captions of an accepted configuration
are ordered, cut and joined, the configuration is accepted, and its schedule, its actions and what
compiling it gives, tables or an error, stay the same. -/
theorem compile_relisted (h : ofConfig config = .ok screen)
    (hrelisted : Caption.Relisted config.captions captions) :
    ∃ other, ofConfig { config with captions } = .ok other ∧
      other.schedule = screen.schedule ∧ other.actions = screen.actions ∧
      other.compile = screen.compile := by
  obtain ⟨other, hother, hperm⟩ := ofConfig_relisted h hrelisted
  have hactions : { config with captions }.mergedActions other.layout =
      config.mergedActions screen.layout :=
    Config.mergedActions_of_perm (schedulable h).layout_eq (schedulable hother).layout_eq hperm
  refine ⟨other, hother, ?_, ?_, ?_⟩
  · rw [schedule_eq hother, schedule_eq h, Config.scheduledActions_of_perm hperm]
    rfl
  · rw [actions_eq hother, actions_eq h, hactions]
  · rw [compile_eq hother, compile_eq h, hactions]
    rfl

/-- The captions of the sample, the last one cut in two and moved to the front. -/
theorem compile_relisted_sample :
    ofConfig .sample = .ok sample ∧
      Caption.Relisted Config.sample.captions
        [⟨"IN", 2, 20⟩, ⟨"FO", 2, 22⟩, ⟨"-", 10, 0⟩, ⟨"HI", 9, 5⟩] ∧
      ∃ other, ofConfig { Config.sample with
          captions := [⟨"IN", 2, 20⟩, ⟨"FO", 2, 22⟩, ⟨"-", 10, 0⟩, ⟨"HI", 9, 5⟩] } = .ok other ∧
        other.schedule = sample.schedule ∧ other.actions = sample.actions ∧
        other.compile = sample.compile := by
  have hperm : Config.sample.captions.Perm [⟨"INFO", 2, 20⟩, ⟨"-", 10, 0⟩, ⟨"HI", 9, 5⟩] := by
    decide
  have hcut : Caption.Relisted [⟨"INFO", 2, 20⟩, ⟨"-", 10, 0⟩, ⟨"HI", 9, 5⟩]
      [⟨"IN", 2, 20⟩, ⟨"FO", 2, 22⟩, ⟨"-", 10, 0⟩, ⟨"HI", 9, 5⟩] :=
    .cut [] [⟨"-", 10, 0⟩, ⟨"HI", 9, 5⟩] ⟨"IN", 2, 20⟩ "FO" (by decide) (by decide)
  have hrelisted := Caption.Relisted.trans (.perm hperm) hcut
  exact ⟨ofConfig_sample, hrelisted, compile_relisted ofConfig_sample hrelisted⟩

end Screen

end InfoScreen
