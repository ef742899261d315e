import InfoScreen.Proofs.Relisting

/-!
# The law of merging

Whatever actions are merged with whatever characters, what comes out can be told slot by slot: the
slots that occur, and what each of them paints, reads and belongs to.  These rules leave nothing
open, so the order in which actions and captions are listed cannot matter.  Nothing is asked of the
actions but that each is in the slot of its own cell; they need not be of a schedule.
-/

namespace InfoScreen

/-- On the grid, row-major order is the order of the addresses. -/
theorem Cell.order_eq_lt_iff {a b : Cell} (ha : a.col < gridColumns) (hb : b.col < gridColumns) :
    a.order b = .lt ↔ a.address < b.address := by
  rw [order, Ordering.then_eq_lt, Nat.compare_eq_lt, Nat.compare_eq_lt, Nat.compare_eq_eq, address,
    address]
  rw [gridColumns] at ha hb ⊢
  omega

def SlotMap.Busy (scheduled : List Action) (slot : Nat) : Prop :=
  ∃ action ∈ scheduled, action.isIdle = false ∧ action.slot = slot

def Layout.Lettered (layout : Layout) (slot : Nat) : Prop :=
  ∃ literal ∈ layout.cells, literal.cell.address = slot

/-- What comes of merging actions with the characters of a layout. -/
structure MergeLaw (config : Config) (layout : Layout) (scheduled actions : List Action) :
    Prop where
  ordered : actions.Pairwise fun a b ↦ a.slot < b.slot
  rowMajor : actions.Pairwise fun a b ↦ a.cell.order b.cell = .lt
  onGrid : ∀ action ∈ actions, action.slot = action.cell.address ∧ action.cell.col < gridColumns
  /-- No slot is lost, none is added. -/
  occurs : ∀ slot, (∃ action ∈ actions, action.slot = slot) ↔
    SlotMap.Busy scheduled slot ∨ layout.Lettered slot
  /-- A character decides what its slot paints. -/
  lettered : ∀ action ∈ actions, ∀ literal ∈ layout.cells, literal.cell.address = action.slot →
    action.paint = some (.literal literal.byte)
  bare : ∀ action ∈ actions, ¬layout.Lettered action.slot →
    ∀ base ∈ scheduled, base.slot = action.slot → action.paint = base.paint
  /-- Under a character or not, a slot reads what it read and stays in its bank. -/
  busy : ∀ action ∈ actions, ∀ base ∈ scheduled, base.isIdle = false → base.slot = action.slot →
    action.read = base.read ∧ action.bank = base.bank
  free : ∀ action ∈ actions, ¬SlotMap.Busy scheduled action.slot →
    action.read = none ∧ config.bankOfRow action.cell.row = .ok action.bank

variable {config : Config} {layout other : Layout} {scheduled actions others : List Action}

namespace SlotMap

section Merged

variable (hcells : layout.cells.Pairwise fun a b ↦ a.cell.address ≠ b.cell.address)
  (hscheduled : scheduled.Pairwise fun a b ↦ a.slot ≠ b.slot)

include hcells hscheduled

theorem occurs_merged_iff (config : Config) (slot : Nat) :
    (∃ action ∈ (merged config layout scheduled).values, action.slot = slot) ↔
      Busy scheduled slot ∨ layout.Lettered slot := by
  constructor
  · rintro ⟨action, haction, rfl⟩
    rcases (mem_merged_iff hcells hscheduled action).mp haction with
      ⟨literal, hliteral, haddress, -⟩ | ⟨-, hmem, hbusy⟩
    · exact .inr ⟨literal, hliteral, haddress⟩
    · exact .inl ⟨action, hmem, hbusy, rfl⟩
  · intro hoccurs
    by_cases hletter : layout.Lettered slot
    · obtain ⟨literal, hliteral, haddress⟩ := hletter
      obtain ⟨action, haction, hslot, -⟩ := (paint_merged_iff hcells hscheduled _).mpr
        (.inl ⟨literal, hliteral, haddress, rfl⟩)
      exact ⟨action, haction, hslot⟩
    · obtain ⟨action, hmem, hbusy, rfl⟩ := hoccurs.resolve_right hletter
      refine ⟨action, (mem_merged_iff hcells hscheduled action).mpr (.inr ⟨?_, hmem, hbusy⟩), rfl⟩
      exact fun literal hliteral haddress ↦ hletter ⟨literal, hliteral, haddress⟩

theorem law_merged (hbank : ∀ row, config.bankOfRow row = .ok (config.bankAt row))
    (hcols : ∀ literal ∈ layout.cells, literal.cell.col < gridColumns)
    (hplace : ∀ action ∈ scheduled,
      action.slot = action.cell.address ∧ action.cell.col < gridColumns) :
    MergeLaw config layout scheduled (merged config layout scheduled).values := by
  have hordered := values_pairwise (filed_merged hcells hscheduled config)
  have honGrid : ∀ action ∈ (merged config layout scheduled).values,
      action.slot = action.cell.address ∧ action.cell.col < gridColumns :=
    forall_mem_merged hcells hscheduled (fun _ _ h ↦ h) hplace
      fun literal hliteral ↦ ⟨rfl, hcols literal hliteral⟩
  constructor
  case ordered => exact hordered
  case rowMajor =>
    apply hordered.imp_of_mem
    intro a b ha hb hlt
    obtain ⟨haslot, hacol⟩ := honGrid a ha
    obtain ⟨hbslot, hbcol⟩ := honGrid b hb
    rwa [Cell.order_eq_lt_iff hacol hbcol, ← haslot, ← hbslot]
  case onGrid => exact honGrid
  case occurs => exact occurs_merged_iff hcells hscheduled config
  case lettered =>
    intro action haction literal hliteral haddress
    obtain ⟨found, hfound, hslot, hpaint⟩ := (paint_merged_iff hcells hscheduled _).mpr
      (.inl ⟨literal, hliteral, haddress, rfl⟩)
    rwa [Action.eq_of_slot_eq hordered hfound haction hslot] at hpaint
  case bare =>
    intro action haction hbare base hbase hslot
    rcases (mem_merged_iff hcells hscheduled action).mp haction with
      ⟨literal, hliteral, haddress, -⟩ | ⟨-, hmem, -⟩
    · exact absurd ⟨literal, hliteral, haddress⟩ hbare
    · rw [Action.eq_of_distinct_slots hscheduled hbase hmem hslot]
  case busy =>
    intro action haction base hbase hidle hslot
    rcases (mem_merged_iff hcells hscheduled action).mp haction with
      ⟨literal, -, -, own, ⟨hown, -, hownSlot⟩ | ⟨hnone, -⟩, hpainted⟩ | ⟨-, hmem, -⟩
    · obtain rfl :=
        Action.eq_of_distinct_slots hscheduled hbase hown (hslot.trans hownSlot.symm)
      rw [hpainted]
      exact ⟨rfl, rfl⟩
    · exact absurd hslot (hnone base hbase hidle)
    · obtain rfl := Action.eq_of_distinct_slots hscheduled hbase hmem hslot
      exact ⟨rfl, rfl⟩
  case free =>
    intro action haction hfree
    rcases (mem_merged_iff hcells hscheduled action).mp haction with
      ⟨literal, -, -, own, hown | ⟨-, rfl⟩, hpainted⟩ | ⟨-, hmem, hidle⟩
    · exact absurd ⟨own, hown⟩ hfree
    · rw [hpainted]
      exact ⟨rfl, hbank literal.cell.row⟩
    · exact absurd ⟨action, hmem, hidle, rfl⟩ hfree

end Merged

end SlotMap

/-! ## The law leaves nothing open -/

namespace MergeLaw

/-- What is in a slot is settled by the law. -/
theorem eq_of_slot_eq (h : MergeLaw config layout scheduled actions)
    (hother : MergeLaw config layout scheduled others) {action found : Action}
    (haction : action ∈ actions) (hfound : found ∈ others) (hslot : found.slot = action.slot) :
    found = action := by
  have hcell : found.cell = action.cell := by
    obtain ⟨hplace, hcol⟩ := h.onGrid action haction
    obtain ⟨hplace', hcol'⟩ := hother.onGrid found hfound
    exact Cell.address_inj hcol' hcol (by rw [← hplace, ← hplace', hslot])
  have hpaint : found.paint = action.paint := by
    by_cases hletter : layout.Lettered action.slot
    · obtain ⟨literal, hliteral, haddress⟩ := hletter
      rw [h.lettered action haction literal hliteral haddress,
        hother.lettered found hfound literal hliteral (haddress.trans hslot.symm)]
    · obtain ⟨base, hbase, -, hbaseSlot⟩ :=
        ((h.occurs action.slot).mp ⟨action, haction, rfl⟩).resolve_right hletter
      rw [h.bare action haction hletter base hbase hbaseSlot,
        hother.bare found hfound (hslot ▸ hletter) base hbase (hbaseSlot.trans hslot.symm)]
  have hrest : found.read = action.read ∧ found.bank = action.bank := by
    by_cases hbusy : SlotMap.Busy scheduled action.slot
    · obtain ⟨base, hbase, hidle, hbaseSlot⟩ := hbusy
      obtain ⟨hread, hbank⟩ := h.busy action haction base hbase hidle hbaseSlot
      obtain ⟨hread', hbank'⟩ :=
        hother.busy found hfound base hbase hidle (hbaseSlot.trans hslot.symm)
      exact ⟨hread'.trans hread.symm, hbank'.trans hbank.symm⟩
    · obtain ⟨hread, hbank⟩ := h.free action haction hbusy
      obtain ⟨hread', hbank'⟩ := hother.free found hfound (hslot ▸ hbusy)
      rw [hcell] at hbank'
      exact ⟨hread'.trans hread.symm, Except.ok.inj (hbank'.symm.trans hbank)⟩
  cases found
  cases action
  rw [Action.mk.injEq]
  exact ⟨hslot, hcell, hrest.2, hpaint, hrest.1⟩

theorem mem_of_mem (h : MergeLaw config layout scheduled actions)
    (hother : MergeLaw config layout scheduled others) {action : Action}
    (haction : action ∈ actions) : action ∈ others := by
  obtain ⟨found, hfound, hslot⟩ := (hother.occurs action.slot).mpr
    ((h.occurs action.slot).mp ⟨action, haction, rfl⟩)
  rwa [← h.eq_of_slot_eq hother haction hfound hslot]

/-- Only one list of actions follows the law. -/
theorem unique (h : MergeLaw config layout scheduled actions)
    (hother : MergeLaw config layout scheduled others) : others = actions := by
  have hperm : others.Perm actions := by
    apply (List.perm_ext_iff_of_nodup _ _).mpr
    · exact fun action ↦ ⟨hother.mem_of_mem h, h.mem_of_mem hother⟩
    · exact hother.ordered.imp fun hlt heq ↦ Nat.ne_of_lt hlt (congrArg Action.slot heq)
    · exact h.ordered.imp fun hlt heq ↦ Nat.ne_of_lt hlt (congrArg Action.slot heq)
  refine hperm.eq_of_pairwise ?_ hother.ordered h.ordered
  exact fun a b _ _ hab hba ↦ absurd hab (Nat.lt_asymm hba)

/-- The law does not see the order of what is merged. -/
theorem of_perm (h : MergeLaw config layout scheduled actions)
    (hcells : layout.cells.Perm other.cells) (hscheduled : scheduled.Perm others) :
    MergeLaw config other others actions := by
  have hbusy : ∀ slot, SlotMap.Busy others slot ↔ SlotMap.Busy scheduled slot := by
    intro slot
    simp only [SlotMap.Busy, hscheduled.mem_iff]
  have hletter : ∀ slot, other.Lettered slot ↔ layout.Lettered slot := by
    intro slot
    simp only [Layout.Lettered, hcells.mem_iff]
  constructor
  case ordered => exact h.ordered
  case rowMajor => exact h.rowMajor
  case onGrid => exact h.onGrid
  case occurs =>
    intro slot
    rw [h.occurs, hbusy, hletter]
  case lettered =>
    intro action haction literal hliteral
    exact h.lettered action haction literal (hcells.mem_iff.mpr hliteral)
  case bare =>
    intro action haction hbare base hbase
    exact h.bare action haction (mt (hletter _).mpr hbare) base (hscheduled.mem_iff.mpr hbase)
  case busy =>
    intro action haction base hbase
    exact h.busy action haction base (hscheduled.mem_iff.mpr hbase)
  case free =>
    intro action haction hfree
    exact h.free action haction (mt (hbusy _).mpr hfree)

end MergeLaw

section

variable {captions : List Caption} (hlayout : Layout.ofCaptions captions = .ok layout)
  (hscheduled : scheduled.Pairwise fun a b ↦ a.slot ≠ b.slot)
  (hplace : ∀ action ∈ scheduled,
    action.slot = action.cell.address ∧ action.cell.col < gridColumns)
  (hbanks : 0 < config.rowCount.toNat ∨ ∀ rows, config.rowsPerBank = some rows → rows = 0)

include hlayout hscheduled hplace hbanks

theorem exists_merge_eq_ok :
    ∃ actions, merge scheduled layout config = .ok actions ∧
      MergeLaw config layout scheduled actions := by
  have hbank := Config.bankOfRow_eq_ok hbanks
  refine ⟨_, SlotMap.merge_eq_ok hbank layout scheduled, ?_⟩
  exact SlotMap.law_merged (Layout.ofCaptions_distinct hlayout) hscheduled hbank
    (Layout.ofCaptions_col_lt hlayout) hplace

/-- Merging gives what the law says, and gives the same again if the actions or the captions are
listed in another order. -/
theorem merge_law :
    ∃ actions, merge scheduled layout config = .ok actions ∧
      MergeLaw config layout scheduled actions ∧
      ∀ reordered reorderedCaptions, scheduled.Perm reordered → captions.Perm reorderedCaptions →
        ∃ other, Layout.ofCaptions reorderedCaptions = .ok other ∧
          merge reordered other config = .ok actions := by
  obtain ⟨actions, hmerge, hlaw⟩ := exists_merge_eq_ok hlayout hscheduled hplace hbanks
  refine ⟨actions, hmerge, hlaw, fun reordered reorderedCaptions hperm hcaptions ↦ ?_⟩
  obtain ⟨other, hother, hcells⟩ := Layout.ofCaptions_relisted hlayout (.perm hcaptions)
  obtain ⟨others, hothers, hlaw'⟩ := exists_merge_eq_ok hother
    (hperm.pairwise hscheduled fun hne ↦ hne.symm)
    (fun action haction ↦ hplace action (hperm.mem_iff.mpr haction)) hbanks
  refine ⟨other, hother, ?_⟩
  rw [hothers, (hlaw.of_perm hcells hperm).unique hlaw']

end

/-- Characters on an idle action, on a read and where nothing is scheduled. -/
theorem merge_law_three_characters :
    let captions : List Caption := [⟨"A", 4, 0⟩, ⟨"B", 2, 4⟩, ⟨"C", 0, 7⟩]
    let scheduled : List Action := [⟨125, ⟨2, 5⟩, 0, some (.fetched .low 122), none⟩,
      ⟨124, ⟨2, 4⟩, 3, none, some 7⟩, ⟨240, ⟨4, 0⟩, 3, none, none⟩, ⟨122, ⟨2, 2⟩, 0, none, some 6⟩]
    let config : Config := { firstRow := 2, rowCount := 4, rowsPerBank := some 2 }
    ∃ layout, Layout.ofCaptions captions = .ok layout ∧
      ∃ actions, merge scheduled layout config = .ok actions ∧
        MergeLaw config layout scheduled actions ∧
        ∀ reordered reorderedCaptions, scheduled.Perm reordered →
          captions.Perm reorderedCaptions →
          ∃ other, Layout.ofCaptions reorderedCaptions = .ok other ∧
            merge reordered other config = .ok actions :=
  ⟨⟨[⟨⟨4, 0⟩, 65⟩, ⟨⟨2, 4⟩, 66⟩, ⟨⟨0, 7⟩, 67⟩]⟩, rfl,
    merge_law rfl (by decide) (by decide) (.inl (by decide))⟩

example :
    merge [⟨125, ⟨2, 5⟩, 0, some (.fetched .low 122), none⟩, ⟨124, ⟨2, 4⟩, 3, none, some 7⟩,
        ⟨240, ⟨4, 0⟩, 3, none, none⟩, ⟨122, ⟨2, 2⟩, 0, none, some 6⟩]
      ⟨[⟨⟨4, 0⟩, 65⟩, ⟨⟨2, 4⟩, 66⟩, ⟨⟨0, 7⟩, 67⟩]⟩
      { firstRow := 2, rowCount := 4, rowsPerBank := some 2 } =
      .ok [⟨7, ⟨0, 7⟩, 0, some (.literal 67), none⟩, ⟨122, ⟨2, 2⟩, 0, none, some 6⟩,
        ⟨124, ⟨2, 4⟩, 3, some (.literal 66), some 7⟩,
        ⟨125, ⟨2, 5⟩, 0, some (.fetched .low 122), none⟩,
        ⟨240, ⟨4, 0⟩, 1, some (.literal 65), none⟩] := by rfl

end InfoScreen
