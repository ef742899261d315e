import InfoScreen.Proofs.Merge
import InfoScreen.Proofs.Schedule

/-!
# Memory traffic

The memory port sees of an action only the byte it requests and the nibble it shows.  This traffic
is the same before and after captions are merged in: it consists of the bytes that no caption
masks, each with one request and two nibbles.
-/

namespace InfoScreen

theorem Action.eq_of_distinct_slots {actions : List Action}
    (hdistinct : actions.Pairwise fun a b ↦ a.slot ≠ b.slot) {action other : Action}
    (haction : action ∈ actions) (hother : other ∈ actions) (hslot : action.slot = other.slot) :
    action = other := by
  have hnodup : (actions.map Action.slot).Nodup := List.pairwise_map.mpr hdistinct
  exact List.inj_on_of_nodup_map hnodup haction hother hslot

/-- Of actions in slot order, no two are in one slot. -/
theorem Action.eq_of_slot_eq {actions : List Action}
    (hordered : actions.Pairwise fun a b ↦ a.slot < b.slot) {action other : Action}
    (haction : action ∈ actions) (hother : other ∈ actions) (hslot : action.slot = other.slot) :
    action = other :=
  eq_of_distinct_slots (hordered.imp Nat.ne_of_lt) haction hother hslot

/-- The requests and the shown nibbles of the actions are those of the configuration. -/
structure Config.Traffic (config : Config) (actions : List Action) : Prop where
  ordered : actions.Pairwise fun a b ↦ a.slot < b.slot
  inPlace : ∀ action ∈ actions, action.InPlace config
  read : ∀ slot offset, (∃ action ∈ actions, action.slot = slot ∧ action.read = some offset) ↔
    ∃ i k, config.Visible i k ∧ slot = (config.requestCell i k).address ∧
      offset = UInt32.ofNat (config.offset i k)
  fetched : ∀ slot nibble readSlot, (∃ action ∈ actions,
      action.slot = slot ∧ action.paint = some (.fetched nibble readSlot)) ↔
    ∃ i k, config.Visible i k ∧ slot = (config.nibbleCell i k nibble).address ∧
      readSlot = (config.requestCell i k).address

namespace Config.Traffic

variable {config : Config} {layout : Layout} {actions : List Action} {action other : Action}

theorem exists_visible_of_read (h : config.Traffic actions) (haction : action ∈ actions)
    (hread : action.read.isSome) :
    ∃ i k, config.Visible i k ∧ action.slot = (config.requestCell i k).address ∧
      action.read = some (UInt32.ofNat (config.offset i k)) := by
  obtain ⟨offset, hoffset⟩ := Option.isSome_iff_exists.mp hread
  obtain ⟨i, k, hvisible, hslot, rfl⟩ := (h.read _ offset).mp ⟨action, haction, rfl, hoffset⟩
  exact ⟨i, k, hvisible, hslot, hoffset⟩

theorem exists_read (h : config.Traffic actions) {i k : Nat} (hvisible : config.Visible i k) :
    ∃ read ∈ actions, read.slot = (config.requestCell i k).address ∧
      read.read = some (UInt32.ofNat (config.offset i k)) :=
  (h.read _ _).mpr ⟨i, k, hvisible, rfl, rfl⟩

theorem bank_le_of_slot_le (h : config.Traffic actions) (haction : action ∈ actions)
    (hother : other ∈ actions) (hslot : action.slot ≤ other.slot) : action.bank ≤ other.bank := by
  have hplace := h.inPlace action haction
  have hplace' := h.inPlace other hother
  rw [hplace.bank_eq, hplace'.bank_eq]
  refine bankAt_mono config (Nat.le_of_not_lt fun hrow ↦ ?_)
  have hlt := Cell.address_lt_of_row_lt hplace'.col_lt hrow
  rw [← hplace.slot_eq, ← hplace'.slot_eq] at hlt
  omega

theorem banks_ascending (h : config.Traffic actions) :
    actions.Pairwise fun a b ↦ a.bank ≤ b.bank := by
  apply h.ordered.imp_of_mem
  intro a b ha hb hlt
  exact h.bank_le_of_slot_le ha hb (Nat.le_of_lt hlt)

theorem bank_lt (h : config.Traffic actions) (hschedulable : config.Schedulable layout)
    (haction : action ∈ actions) : action.bank < config.bankCount := by
  rw [(h.inPlace action haction).bank_eq]
  exact hschedulable.bankAt_lt _

/-- The slot of an action tells its cell. -/
theorem cell_eq_of_slot (h : config.Traffic actions) (haction : action ∈ actions) {cell : Cell}
    (hcol : cell.col < gridColumns) (hslot : action.slot = cell.address) : action.cell = cell := by
  have hplace := h.inPlace action haction
  apply Cell.address_inj hplace.col_lt hcol
  rw [← hplace.slot_eq, hslot]

theorem bank_eq_of_slot (h : config.Traffic actions) (haction : action ∈ actions) {cell : Cell}
    (hcol : cell.col < gridColumns) (hslot : action.slot = cell.address) :
    action.bank = config.bankAt cell.row := by
  rw [(h.inPlace action haction).bank_eq, h.cell_eq_of_slot haction hcol hslot]

/-- The nibbles of a byte are found by the slot of its request. -/
theorem fetched_iff (h : config.Traffic actions) (hschedulable : config.Schedulable layout)
    {i k : Nat} (hvisible : config.Visible i k) (nibble : Nibble) (haction : action ∈ actions) :
    action.paint = some (.fetched nibble (config.requestCell i k).address) ↔
      action.slot = (config.nibbleCell i k nibble).address := by
  constructor
  · intro hpaint
    obtain ⟨j, l, hvisible', hslot, hrequest⟩ := (h.fetched _ _ _).mp ⟨action, haction, rfl, hpaint⟩
    obtain ⟨rfl, rfl⟩ := hschedulable.requestCell_inj hvisible.byte_lt hvisible'.byte_lt hrequest
    exact hslot
  · intro hslot
    obtain ⟨shown, hshown, hslot', hpaint⟩ :=
      (h.fetched (config.nibbleCell i k nibble).address nibble _).mpr ⟨i, k, hvisible, rfl, rfl⟩
    obtain rfl := Action.eq_of_slot_eq h.ordered haction hshown (hslot.trans hslot'.symm)
    exact hpaint

theorem exists_nibble (h : config.Traffic actions) {i k : Nat} (hvisible : config.Visible i k)
    (nibble : Nibble) : ∃ shown ∈ actions, shown.slot = (config.nibbleCell i k nibble).address := by
  obtain ⟨shown, hshown, hslot, -⟩ :=
    (h.fetched (config.nibbleCell i k nibble).address nibble _).mpr ⟨i, k, hvisible, rfl, rfl⟩
  exact ⟨shown, hshown, hslot⟩

end Config.Traffic

namespace Config

variable {config : Config} {layout : Layout}

def mergedActions (config : Config) (layout : Layout) : List Action :=
  (SlotMap.merged config layout (config.scheduledActions layout config.rowCount.toNat)).values

namespace Schedulable

theorem scheduledActions_ordered (rows : Nat) :
    (config.scheduledActions layout rows).Pairwise fun a b ↦ a.slot < b.slot := by
  have hslot : ∀ n, (config.scheduledAction layout (n / gridColumns) (n % gridColumns)).slot =
      config.firstRow.toNat * gridColumns + n := by
    intro n
    change (config.firstRow.toNat + n / gridColumns) * gridColumns + n % gridColumns = _
    rw [Nat.add_mul, Nat.add_assoc, Nat.div_add_mod']
  refine List.pairwise_map.mpr (List.pairwise_lt_range.imp fun hlt ↦ ?_)
  rw [hslot, hslot]
  exact Nat.add_lt_add_left hlt _

/-- The actions that are scheduled for an accepted configuration have its traffic. -/
theorem traffic_scheduled (h : config.Schedulable layout) :
    config.Traffic (config.scheduledActions layout config.rowCount.toNat) where
  ordered := scheduledActions_ordered _
  inPlace := by
    intro action haction
    obtain ⟨i, hi, col, hcol, rfl⟩ := mem_scheduledActions_iff.mp haction
    exact ⟨rfl, hcol, (h.bankAt_row hi).symm⟩
  read := by
    intro slot offset
    constructor
    · rintro ⟨action, haction, rfl, hread⟩
      obtain ⟨i, hi, col, hcol, rfl⟩ := mem_scheduledActions_iff.mp haction
      obtain ⟨k, hk, hmasked, rfl, hoffset⟩ := (h.scheduledAction_read_iff i col offset).mp hread
      exact ⟨i, k, ⟨hi, hk, hmasked⟩, rfl, hoffset⟩
    · rintro ⟨i, k, ⟨hi, hk, hmasked⟩, rfl, hoffset⟩
      refine ⟨config.scheduledAction layout i (config.pattern.requestColumn k), ?_, rfl, ?_⟩
      · apply mem_scheduledActions_iff.mpr
        exact ⟨i, hi, config.pattern.requestColumn k, h.requestCell_col_lt i hk, rfl⟩
      · apply (h.scheduledAction_read_iff i _ offset).mpr
        exact ⟨k, hk, hmasked, rfl, hoffset⟩
  fetched := by
    intro slot nibble readSlot
    constructor
    · rintro ⟨action, haction, rfl, hpaint⟩
      obtain ⟨i, hi, col, hcol, rfl⟩ := mem_scheduledActions_iff.mp haction
      cases (h.scheduledAction_paint_iff i col _).mp hpaint with
      | nibble hk hmasked => exact ⟨i, _, ⟨hi, hk, hmasked⟩, rfl, rfl⟩
    · rintro ⟨i, k, ⟨hi, hk, hmasked⟩, rfl, rfl⟩
      refine ⟨config.scheduledAction layout i (config.pattern.nibbleColumn k nibble), ?_, rfl, ?_⟩
      · apply mem_scheduledActions_iff.mpr
        exact ⟨i, hi, config.pattern.nibbleColumn k nibble, h.nibbleCell_col_lt i hk nibble, rfl⟩
      · apply (h.scheduledAction_paint_iff i _ _).mpr
        exact .nibble hk hmasked

theorem scheduled_distinct (rows : Nat) :
    (config.scheduledActions layout rows).Pairwise fun a b ↦ a.slot ≠ b.slot :=
  (scheduledActions_ordered rows).imp fun hlt ↦ Nat.ne_of_lt hlt

/-- No caption is on a cell that a schedule paints. -/
theorem not_captioned_of_shows {i col : Nat} {paint : Paint} (hshows : config.Shows i col paint) :
    ¬config.Captioned ⟨config.firstRow.toNat + i, col⟩ := by
  cases hshows with
  | @nibble k nibble _ hmasked => exact fun hcaptioned ↦ hmasked ⟨nibble, hcaptioned⟩
  | label _ hcovered => exact hcovered

theorem col_lt_of_shows (h : config.Schedulable layout) {i col : Nat} {paint : Paint}
    (hshows : config.Shows i col paint) : col < gridColumns := by
  cases hshows with
  | @nibble k nibble hk _ => exact h.nibbleCell_col_lt i hk nibble
  | @label nibble hon _ => exact ((h.sound.labelled hon).free nibble).lt_grid

/-- The merged actions paint the characters of the captions and, where no caption is, what the
schedule paints. -/
theorem paint_mergedActions_iff (h : config.Schedulable layout) (slot : Nat) (paint : Paint) :
    (∃ action ∈ config.mergedActions layout, action.slot = slot ∧ action.paint = some paint) ↔
      (∃ literal ∈ layout.cells, literal.cell.address = slot ∧ paint = .literal literal.byte) ∨
        ∃ i < config.rowCount.toNat, ∃ col,
          slot = (⟨config.firstRow.toNat + i, col⟩ : Cell).address ∧ config.Shows i col paint := by
  have hscheduled : (∃ action ∈ config.scheduledActions layout config.rowCount.toNat,
      action.slot = slot ∧ action.paint = some paint) ↔
      ∃ i < config.rowCount.toNat, ∃ col,
        slot = (⟨config.firstRow.toNat + i, col⟩ : Cell).address ∧ config.Shows i col paint := by
    constructor
    · rintro ⟨action, haction, rfl, hpaint⟩
      obtain ⟨i, hi, col, -, rfl⟩ := mem_scheduledActions_iff.mp haction
      exact ⟨i, hi, col, rfl, (h.scheduledAction_paint_iff i col paint).mp hpaint⟩
    · rintro ⟨i, hi, col, rfl, hshows⟩
      refine ⟨config.scheduledAction layout i col, ?_, rfl, ?_⟩
      · apply mem_scheduledActions_iff.mpr
        exact ⟨i, hi, col, h.col_lt_of_shows hshows, rfl⟩
      · apply (h.scheduledAction_paint_iff i col paint).mpr
        exact hshows
  rw [mergedActions, SlotMap.paint_merged_iff (Layout.ofCaptions_distinct h.layout_eq)
    (scheduled_distinct _), hscheduled]
  refine or_congr_right (and_iff_right_of_imp ?_)
  rintro ⟨i, -, col, rfl, hshows⟩ literal hliteral haddress
  have hcell := Cell.address_inj (Layout.ofCaptions_col_lt h.layout_eq literal hliteral)
    (h.col_lt_of_shows hshows) haddress
  apply not_captioned_of_shows hshows
  apply (h.captioned_iff _).mpr
  exact (Layout.covers_iff _ _).mpr ⟨literal, hliteral, hcell⟩

/-- Merging captions in keeps the traffic: no nibble that is shown is under a caption, and a
caption keeps the request in its slot. -/
theorem traffic_merged (h : config.Schedulable layout) :
    config.Traffic (config.mergedActions layout) where
  ordered := SlotMap.values_pairwise
    (SlotMap.filed_merged (Layout.ofCaptions_distinct h.layout_eq) (scheduled_distinct _) config)
  inPlace := h.inPlace_merged (scheduled_distinct _) h.traffic_scheduled.inPlace
  read := by
    intro slot offset
    rw [← h.traffic_scheduled.read]
    exact SlotMap.read_merged_iff (Layout.ofCaptions_distinct h.layout_eq) (scheduled_distinct _)
      offset
  fetched := by
    intro slot nibble readSlot
    rw [h.paint_mergedActions_iff]
    constructor
    · rintro (⟨literal, -, -, hpaint⟩ | ⟨i, hi, col, rfl, hshows⟩)
      · cases hpaint
      · cases hshows with
        | nibble hk hmasked => exact ⟨i, _, ⟨hi, hk, hmasked⟩, rfl, rfl⟩
    · rintro ⟨i, k, ⟨hi, hk, hmasked⟩, rfl, rfl⟩
      exact .inr ⟨i, hi, _, rfl, .nibble hk hmasked⟩

end Schedulable

end Config

namespace Screen

variable {config : Config} {screen : Screen}

theorem actions_eq (h : ofConfig config = .ok screen) :
    screen.actions = .ok (config.mergedActions screen.layout) := by
  obtain ⟨-, hconfig, -⟩ := ofConfig_eq_ok_iff.mp h
  simp only [actions, schedule_eq h, Outcome.ok_bind, hconfig]
  exact (schedulable h).merge_eq _

def checkDepths (encoding : Encoding) (banks : List Bank) : Outcome Unit :=
  match encoding.romDepth with
  | none => pure ()
  | some depth => banks.forM (checkDepth depth.toNat)

/-- Compiling splits the merged actions over the banks and then checks the depth of each bank. -/
theorem compile_eq (h : ofConfig config = .ok screen) :
    screen.compile =
      (Bank.split (config.mergedActions screen.layout) config.bankCount config.firstIndex.toNat >>=
        fun banks ↦ checkDepths config.encoding banks >>= fun _ ↦
          pure ⟨banks, config.encoding, config.offset config.rowCount.toNat 0⟩) := by
  obtain ⟨-, hconfig, -⟩ := ofConfig_eq_ok_iff.mp h
  have hmerge : merge (config.scheduledActions screen.layout config.rowCount.toNat) screen.layout
      config = .ok (config.mergedActions screen.layout) := (schedulable h).merge_eq _
  simp only [compile, schedule_eq h, hconfig, Outcome.ok_bind, hmerge]
  congr 1
  funext banks
  unfold checkDepths
  cases config.encoding.romDepth <;> rfl

/-- The banks of a compiled screen are those into which its merged actions are split. -/
theorem compile_eq_ok {tables : Tables} (h : ofConfig config = .ok screen)
    (hcompile : screen.compile = .ok tables) :
    Bank.split (config.mergedActions screen.layout) config.bankCount config.firstIndex.toNat =
        .ok tables.banks ∧
      tables.finalAddress = config.offset config.rowCount.toNat 0 := by
  rw [compile_eq h] at hcompile
  obtain ⟨banks, hsplit, hcompile⟩ := Outcome.bind_eq_ok.mp hcompile
  obtain ⟨-, hcompile⟩ := Outcome.check_bind_eq_ok.mp hcompile
  obtain rfl := Outcome.pure_eq_ok.mp hcompile
  exact ⟨hsplit, rfl⟩

end Screen

end InfoScreen
