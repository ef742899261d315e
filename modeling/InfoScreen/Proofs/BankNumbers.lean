import Mathlib.Order.Bounds.Defs
import InfoScreen.Proofs.Traffic

/-!
# Bank numbers

The bank of a slot is found in two ways.  The scheduler counts the banks that it has sealed, and a
slot that only a caption fills gets its bank from the row of its cell.  The two agree on every
scheduled row, and rows above and below the schedule go to the first and the last bank.  Every
scheduled row has an action, if only a caption's, so along the slots the banks come in order and
none is left out.
-/

namespace InfoScreen

namespace Config

/-- The first scheduled row of a bank. -/
def bankRow (config : Config) (bank : Nat) : Nat :=
  match config.rowsPerBank with
  | none => 0
  | some rows => bank * rows.toNat

/-- The bank numbers that a schedule and its actions carry are those of the rows. -/
structure BanksAgree (config : Config) (schedule : Schedule) (actions : List Action) : Prop where
  scheduled : ∀ action ∈ schedule.actions, config.bankOfRow action.cell.row = .ok action.bank
  starts_length : schedule.bankStarts.length = config.bankCount
  /-- A bank starts in the first scheduled slot whose row is in the bank. -/
  starts : ∀ bank < config.bankCount, ∃ start, schedule.bankStarts[bank]? = some start ∧
    IsLeast {slot | ∃ action ∈ schedule.actions,
      action.slot = slot ∧ config.bankOfRow action.cell.row = .ok bank} start
  merged : ∀ action ∈ actions, config.bankOfRow action.cell.row = .ok action.bank
  ordered : actions.Pairwise fun a b ↦ a.slot < b.slot
  ascending : actions.Pairwise fun a b ↦ a.bank ≤ b.bank
  occurs : ∀ bank, (∃ action ∈ actions, action.bank = bank) ↔ bank < config.bankCount
  captions : ∀ caption ∈ config.captions, ∀ literal ∈ caption.cells,
    ∃ action ∈ actions, action.cell = literal.cell ∧ action.paint = some (.literal literal.byte)
  above : ∀ action ∈ actions, action.cell.row < config.firstRow.toNat → action.bank = 0
  below : ∀ action ∈ actions, config.firstRow.toNat + config.rowCount.toNat ≤ action.cell.row →
    action.bank + 1 = config.bankCount

variable {config : Config} {layout : Layout}

theorem bankStart_eq (config : Config) (bank : Nat) :
    config.bankStart bank = (config.firstRow.toNat + config.bankRow bank) * gridColumns := by
  unfold bankStart bankRow
  cases config.rowsPerBank with
  | none => rfl
  | some rows => rfl

/-- A bank does not start after a row that is in it. -/
theorem bankRow_rowBank_le (config : Config) (i : Nat) :
    config.bankRow (config.rowBank i) ≤ i := by
  unfold rowBank bankRow
  cases config.rowsPerBank with
  | none => exact Nat.zero_le i
  | some rows => exact Nat.div_mul_le_self i rows.toNat

theorem bankRow_mono (config : Config) {bank other : Nat} (hle : bank ≤ other) :
    config.bankRow bank ≤ config.bankRow other := by
  unfold bankRow
  cases config.rowsPerBank with
  | none => exact Nat.le_refl 0
  | some rows => exact Nat.mul_le_mul_right rows.toNat hle

namespace Schedulable

theorem rowBank_bankRow (h : config.Schedulable layout) {bank : Nat}
    (hbank : bank < config.bankCount) : config.rowBank (config.bankRow bank) = bank := by
  unfold rowBank bankRow
  cases hrows : config.rowsPerBank with
  | none =>
    simp only [bankCount, hrows] at hbank
    exact (Nat.lt_one_iff.mp hbank).symm
  | some rows => exact Nat.mul_div_cancel bank (h.bank_pos rows hrows)

/-- Every bank starts in a scheduled row. -/
theorem bankRow_lt (h : config.Schedulable layout) {bank : Nat} (hbank : bank < config.bankCount) :
    config.bankRow bank < config.rowCount.toNat := by
  rw [h.bankCount_eq] at hbank
  calc
    config.bankRow bank ≤ config.bankRow (config.rowBank (config.rowCount.toNat - 1)) :=
      config.bankRow_mono (Nat.le_of_lt_succ hbank)
    _ ≤ config.rowCount.toNat - 1 := config.bankRow_rowBank_le _
    _ < config.rowCount.toNat := Nat.pred_lt_of_lt h.rows_pos

theorem bankAt_of_above (h : config.Schedulable layout) {row : Nat}
    (hrow : row ≤ config.firstRow.toNat) : config.bankAt row = 0 := by
  apply Nat.eq_zero_of_le_zero
  calc
    config.bankAt row ≤ config.bankAt (config.firstRow.toNat + 0) := config.bankAt_mono hrow
    _ = config.rowBank 0 := h.bankAt_row h.rows_pos
    _ = 0 := config.rowBank_zero

theorem bankAt_of_below (h : config.Schedulable layout) {row : Nat}
    (hrow : config.firstRow.toNat + config.rowCount.toNat ≤ row) :
    config.bankAt row + 1 = config.bankCount := by
  have hlast : config.rowCount.toNat - 1 < config.rowCount.toNat := Nat.pred_lt_of_lt h.rows_pos
  apply Nat.le_antisymm (h.bankAt_lt row)
  calc
    config.bankCount = config.rowBank (config.rowCount.toNat - 1) + 1 := h.bankCount_eq
    _ = config.bankAt (config.firstRow.toNat + (config.rowCount.toNat - 1)) + 1 := by
      rw [h.bankAt_row hlast]
    _ ≤ config.bankAt row + 1 := Nat.succ_le_succ (config.bankAt_mono (by omega))

/-- The bank number that an action carries is that of its row. -/
theorem bankOfRow_of_inPlace (h : config.Schedulable layout) {action : Action}
    (hplace : action.InPlace config) : config.bankOfRow action.cell.row = .ok action.bank := by
  rw [h.bankOfRow_eq, hplace.bank_eq]

/-! ## Where the banks start -/

/-- No scheduled slot of a bank comes before its first. -/
theorem isLeast_bankStart (h : config.Schedulable layout) {bank : Nat}
    (hbank : bank < config.bankCount) :
    IsLeast {slot | ∃ action ∈ config.scheduledActions layout config.rowCount.toNat,
      action.slot = slot ∧ config.bankOfRow action.cell.row = .ok bank}
      (config.bankStart bank) := by
  constructor
  · refine ⟨config.scheduledAction layout (config.bankRow bank) 0, ?_, ?_, ?_⟩
    · apply mem_scheduledActions_iff.mpr
      exact ⟨config.bankRow bank, h.bankRow_lt hbank, 0, by decide, rfl⟩
    · rw [bankStart_eq]
      rfl
    · rw [h.bankOfRow_eq]
      apply congrArg Except.ok
      calc
        config.bankAt (config.firstRow.toNat + config.bankRow bank) =
            config.rowBank (config.bankRow bank) := h.bankAt_row (h.bankRow_lt hbank)
        _ = bank := h.rowBank_bankRow hbank
  · rintro slot ⟨action, haction, rfl, hown⟩
    obtain ⟨i, hi, col, -, rfl⟩ := mem_scheduledActions_iff.mp haction
    have hsame : config.rowBank i = bank := by
      rw [← h.bankAt_row hi]
      exact Except.ok.inj ((h.bankOfRow_eq _).symm.trans hown)
    calc
      config.bankStart bank = (config.firstRow.toNat + config.bankRow bank) * gridColumns :=
        config.bankStart_eq bank
      _ ≤ (config.firstRow.toNat + i) * gridColumns := by
        rw [← hsame]
        apply Nat.mul_le_mul_right
        exact Nat.add_le_add_left (config.bankRow_rowBank_le i) _
      _ ≤ (config.firstRow.toNat + i) * gridColumns + col := Nat.le_add_right _ col

/-- Every character of a caption has an action at its cell. -/
theorem exists_merged_of_literal (h : config.Schedulable layout) {literal : LiteralCell}
    (hliteral : literal ∈ layout.cells) : ∃ action ∈ config.mergedActions layout,
      action.cell = literal.cell ∧ action.paint = some (.literal literal.byte) := by
  obtain ⟨action, haction, hslot, hpaint⟩ :=
    (h.paint_mergedActions_iff literal.cell.address (.literal literal.byte)).mpr
      (.inl ⟨literal, hliteral, rfl, rfl⟩)
  have hcol := Layout.ofCaptions_col_lt h.layout_eq literal hliteral
  exact ⟨action, haction, h.traffic_merged.cell_eq_of_slot haction hcol hslot, hpaint⟩

/-- A scheduled row requests its first byte, or a caption hides a nibble of it. -/
theorem exists_merged_of_row (h : config.Schedulable layout) {i : Nat}
    (hi : i < config.rowCount.toNat) :
    ∃ action ∈ config.mergedActions layout, action.cell.row = config.firstRow.toNat + i := by
  have hfirst := h.sound.bytes_pos
  by_cases hmasked : config.Masked i 0
  · obtain ⟨nibble, hcaptioned⟩ := hmasked
    obtain ⟨literal, hliteral, hcell⟩ :=
      (Layout.covers_iff layout _).mp ((h.captioned_iff _).mp hcaptioned)
    obtain ⟨action, haction, hsame, -⟩ := h.exists_merged_of_literal hliteral
    refine ⟨action, haction, ?_⟩
    rw [hsame, hcell]
    rfl
  · obtain ⟨read, hread, hslot, -⟩ := h.traffic_merged.exists_read ⟨hi, hfirst, hmasked⟩
    have hcell := h.traffic_merged.cell_eq_of_slot hread (h.requestCell_col_lt i hfirst) hslot
    refine ⟨read, hread, ?_⟩
    rw [hcell]
    rfl

/-- No bank is empty, and no action is outside the banks. -/
theorem exists_merged_of_bank_iff (h : config.Schedulable layout) (bank : Nat) :
    (∃ action ∈ config.mergedActions layout, action.bank = bank) ↔ bank < config.bankCount := by
  constructor
  · rintro ⟨action, haction, rfl⟩
    exact h.traffic_merged.bank_lt h haction
  · intro hbank
    have hrow := h.bankRow_lt hbank
    obtain ⟨action, haction, hcell⟩ := h.exists_merged_of_row hrow
    refine ⟨action, haction, ?_⟩
    calc
      action.bank = config.bankAt action.cell.row :=
        (h.traffic_merged.inPlace action haction).bank_eq
      _ = config.rowBank (config.bankRow bank) := by rw [hcell, h.bankAt_row hrow]
      _ = bank := h.rowBank_bankRow hbank

end Schedulable

end Config

namespace Screen

variable {config : Config} {screen : Screen}

/-- The two ways of finding the bank of a row agree.  The schedule starts every bank in the first
slot of its rows, and along the actions the banks come in order, each of them at least once, with
the captions above the scheduled rows in the first bank and those below in the last. -/
theorem schedule_and_actions_banksAgree (h : ofConfig config = .ok screen) :
    ∃ schedule actions, screen.schedule = .ok schedule ∧ screen.actions = .ok actions ∧
      config.BanksAgree schedule actions := by
  have hschedulable := schedulable h
  have hscheduled := hschedulable.traffic_scheduled
  have hmerged := hschedulable.traffic_merged
  refine ⟨_, _, schedule_eq h, actions_eq h, ?_⟩
  constructor
  case scheduled =>
    intro action haction
    exact hschedulable.bankOfRow_of_inPlace (hscheduled.inPlace action haction)
  case starts_length => rw [List.length_map, List.length_range]
  case starts =>
    intro bank hbank
    refine ⟨config.bankStart bank, ?_, hschedulable.isLeast_bankStart hbank⟩
    rw [List.getElem?_map, List.getElem?_range hbank, Option.map_some]
  case merged =>
    intro action haction
    exact hschedulable.bankOfRow_of_inPlace (hmerged.inPlace action haction)
  case ordered => exact hmerged.ordered
  case ascending => exact hmerged.banks_ascending
  case occurs => exact hschedulable.exists_merged_of_bank_iff
  case captions =>
    intro caption hcaption literal hliteral
    apply hschedulable.exists_merged_of_literal
    rw [Layout.ofCaptions_cells hschedulable.layout_eq, List.mem_flatMap]
    exact ⟨caption, hcaption, hliteral⟩
  case above =>
    intro action haction hrow
    rw [(hmerged.inPlace action haction).bank_eq]
    exact hschedulable.bankAt_of_above (Nat.le_of_lt hrow)
  case below =>
    intro action haction hrow
    rw [(hmerged.inPlace action haction).bank_eq]
    exact hschedulable.bankAt_of_below hrow

theorem schedule_and_actions_banksAgree_sample : ofConfig .sample = .ok sample ∧
    ∃ schedule actions, sample.schedule = .ok schedule ∧ sample.actions = .ok actions ∧
      Config.sample.BanksAgree schedule actions :=
  ⟨ofConfig_sample, schedule_and_actions_banksAgree ofConfig_sample⟩

end Screen

end InfoScreen
