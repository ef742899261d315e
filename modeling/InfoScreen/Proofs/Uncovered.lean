import InfoScreen.Proofs.Traffic

/-!
# What captions leave alone

A byte's request sits on the low nibble of the byte before it, and all rows share one running
cursor.  Still a caption reaches no further than the bytes and labels that it covers: a masked byte
takes its request and both its nibbles with it and keeps its offset, so nothing moves up into the
gap.  Two configurations that differ in their captions alone therefore agree on every byte and every
label that is free in both.
-/

namespace InfoScreen

/-- In the slot of a cell two lists of actions are in one bank and do the same in some respect. -/
def Action.Alike {α : Type} (cell : Cell) (respect : Action → Option α) (value : α)
    (actions others : List Action) : Prop :=
  ∃ action ∈ actions, ∃ other ∈ others,
    action.slot = cell.address ∧ other.slot = cell.address ∧ action.bank = other.bank ∧
      respect action = some value ∧ respect other = some value

namespace Config

def ReadsVisible (config : Config) (actions : List Action) : Prop :=
  ∀ action ∈ actions, ∀ offset, action.read = some offset → ∃ i k, config.Visible i k ∧
    config.pattern.readColumnOf k = .ok action.cell.col ∧
    action.cell.row = config.firstRow.toNat + i ∧ action.slot = action.cell.address ∧
    offset = UInt32.ofNat (config.offset i k)

/-- Actions of a configuration, and others of the same configuration with other captions, agree on
what is covered by neither captions. -/
structure Undisturbed (config : Config) (captions : List Caption) (actions others : List Action) :
    Prop where
  ordered : actions.Pairwise fun a b ↦ a.slot < b.slot
  ordered_others : others.Pairwise fun a b ↦ a.slot < b.slot
  /-- A byte that is visible in both is requested in the same slot, with the same offset. -/
  request : ∀ i k, config.Visible i k → { config with captions }.Visible i k →
    ∃ col, config.pattern.readColumnOf k = .ok col ∧
      Action.Alike ⟨config.firstRow.toNat + i, col⟩ Action.read
        (UInt32.ofNat (config.offset i k)) actions others
  /-- Both its nibbles are shown, from the slot of that request. -/
  nibble : ∀ i k nibble, config.Visible i k → { config with captions }.Visible i k →
    Action.Alike (config.nibbleCell i k nibble) Action.paint
      (.fetched nibble (config.requestCell i k).address) actions others
  /-- A label cell that is free in both shows its nibble of the row's first offset. -/
  label : ∀ i < config.rowCount.toNat, ∀ nibble, config.addressLabels = true →
    ¬config.Captioned (config.labelCell i nibble) →
    ¬{ config with captions }.Captioned (config.labelCell i nibble) →
    Action.Alike (config.labelCell i nibble) Action.paint
      (.cursorAddress nibble (UInt32.ofNat (config.offset i 0))) actions others
  reads : config.ReadsVisible actions
  reads_others : { config with captions }.ReadsVisible others

variable {config : Config} {captions : List Caption} {layout otherLayout : Layout}
  {actions others : List Action}

namespace Traffic

/-- The bank of a slot does not depend on the captions. -/
theorem alike (h : config.Traffic actions) (hothers : { config with captions }.Traffic others)
    {cell : Cell} (hcol : cell.col < gridColumns) {α : Type} {respect : Action → Option α}
    {value : α} (haction : ∃ action ∈ actions, action.slot = cell.address ∧
      respect action = some value)
    (hother : ∃ other ∈ others, other.slot = cell.address ∧ respect other = some value) :
    Action.Alike cell respect value actions others := by
  obtain ⟨action, hmem, hslot, hvalue⟩ := haction
  obtain ⟨other, hmem', hslot', hvalue'⟩ := hother
  refine ⟨action, hmem, other, hmem', hslot, hslot', ?_, hvalue, hvalue'⟩
  calc
    action.bank = config.bankAt cell.row := h.bank_eq_of_slot hmem hcol hslot
    _ = { config with captions }.bankAt cell.row := rfl
    _ = other.bank := (hothers.bank_eq_of_slot hmem' hcol hslot').symm

/-- No request is left behind by a byte that is masked. -/
theorem readsVisible (h : config.Traffic actions) (hschedulable : config.Schedulable layout) :
    config.ReadsVisible actions := by
  intro action haction offset hread
  obtain ⟨i, k, hvisible, hslot, hoffset⟩ :=
    h.exists_visible_of_read haction (Option.isSome_iff_exists.mpr ⟨offset, hread⟩)
  have hcell := h.cell_eq_of_slot haction
    (hschedulable.requestCell_col_lt i hvisible.byte_lt) hslot
  refine ⟨i, k, hvisible, ?_, ?_, (h.inPlace action haction).slot_eq, ?_⟩
  · rw [hcell]
    exact hschedulable.sound.readColumnOf_eq hvisible.byte_lt
  · rw [hcell]
    rfl
  · exact Option.some.inj (hread.symm.trans hoffset)

end Traffic

namespace Schedulable

/-- A label is painted where no caption is. -/
theorem exists_label (h : config.Schedulable layout) {i : Nat} (hi : i < config.rowCount.toNat)
    {nibble : Nibble} (hon : config.addressLabels = true)
    (hcovered : ¬config.Captioned (config.labelCell i nibble)) :
    ∃ action ∈ config.mergedActions layout, action.slot = (config.labelCell i nibble).address ∧
      action.paint = some (.cursorAddress nibble (UInt32.ofNat (config.offset i 0))) := by
  apply (h.paint_mergedActions_iff _ _).mpr
  exact .inr ⟨i, hi, _, rfl, .label hon hcovered⟩

/-- A nibble of a visible byte is painted, whatever else is under a caption. -/
theorem exists_shown (h : config.Schedulable layout) {i k : Nat} (hvisible : config.Visible i k)
    (nibble : Nibble) :
    ∃ action ∈ config.mergedActions layout, action.slot = (config.nibbleCell i k nibble).address ∧
      action.paint = some (.fetched nibble (config.requestCell i k).address) :=
  (h.traffic_merged.fetched _ _ _).mpr ⟨i, k, hvisible, rfl, rfl⟩

/-- The merged actions of two layouts agree on what neither covers. -/
theorem undisturbed (h : config.Schedulable layout)
    (hother : { config with captions }.Schedulable otherLayout) :
    config.Undisturbed captions (config.mergedActions layout)
      ({ config with captions }.mergedActions otherLayout) := by
  have htraffic := h.traffic_merged
  have htraffic' := hother.traffic_merged
  constructor
  case ordered => exact htraffic.ordered
  case ordered_others => exact htraffic'.ordered
  case request =>
    intro i k hvisible hvisible'
    have hk := hvisible.byte_lt
    refine ⟨config.pattern.requestColumn k, h.sound.readColumnOf_eq hk, ?_⟩
    apply htraffic.alike htraffic' (h.requestCell_col_lt i hk)
    · exact htraffic.exists_read hvisible
    · exact htraffic'.exists_read hvisible'
  case nibble =>
    intro i k nibble hvisible hvisible'
    apply htraffic.alike htraffic' (h.nibbleCell_col_lt i hvisible.byte_lt nibble)
    · exact h.exists_shown hvisible nibble
    · exact hother.exists_shown hvisible' nibble
  case label =>
    intro i hi nibble hon hcovered hcovered'
    apply htraffic.alike htraffic' ((h.sound.labelled hon).free nibble).lt_grid
    · exact h.exists_label hi hon hcovered
    · exact hother.exists_label hi hon hcovered'
  case reads => exact htraffic.readsVisible h
  case reads_others => exact htraffic'.readsVisible hother

end Schedulable

end Config

namespace Screen

variable {config : Config} {captions : List Caption} {screen other : Screen}

/-- Two accepted configurations that differ in their captions alone have the same bank starts and
the same final offset, and their merged actions agree on every byte and every label that neither of
them covers.  In each of them, every request is that of a byte that is not covered there. -/
theorem actions_undisturbed (h : ofConfig config = .ok screen)
    (hother : ofConfig { config with captions } = .ok other) :
    ∃ schedule otherSchedule actions others,
      screen.schedule = .ok schedule ∧ other.schedule = .ok otherSchedule ∧
      screen.actions = .ok actions ∧ other.actions = .ok others ∧
      schedule.bankStarts = otherSchedule.bankStarts ∧
      schedule.finalAddress = otherSchedule.finalAddress ∧
      config.Undisturbed captions actions others :=
  ⟨_, _, _, _, schedule_eq h, schedule_eq hother, actions_eq h, actions_eq hother, rfl, rfl,
    (schedulable h).undisturbed (schedulable hother)⟩

/-- The sample with captions in other places: over the slot of a request and over a low nibble. -/
def recaptioned : Screen :=
  let config : Config := { Config.sample with captions := [⟨"*", 9, 2⟩, ⟨"--", 10, 7⟩] }
  ⟨config, ⟨config.captions.flatMap Caption.cells⟩⟩

/-- The last byte of the second row is requested at the low nibble of a byte that is masked in one
of the two. -/
theorem actions_undisturbed_sample :
    ofConfig .sample = .ok sample ∧ ofConfig recaptioned.config = .ok recaptioned ∧
      ∃ actions others, sample.actions = .ok actions ∧ recaptioned.actions = .ok others ∧
        Config.sample.Undisturbed recaptioned.config.captions actions others ∧
        Action.Alike ⟨10, 7⟩ Action.read 5 actions others := by
  have hother : ofConfig recaptioned.config = .ok recaptioned := rfl
  have hvisible : Config.sample.Visible 1 2 := by
    refine ⟨by decide, by decide, ?_⟩
    rw [← (schedulable ofConfig_sample).masked_iff 1 (by decide)]
    decide
  have hvisible' : recaptioned.config.Visible 1 2 := by
    refine ⟨by decide, by decide, ?_⟩
    rw [← (schedulable hother).masked_iff 1 (by decide)]
    decide
  obtain ⟨-, -, actions, others, -, -, hactions, hothers, -, -, hundisturbed⟩ :=
    actions_undisturbed ofConfig_sample hother
  obtain ⟨col, hcol, halike⟩ := hundisturbed.request 1 2 hvisible hvisible'
  obtain rfl := Except.ok.inj hcol
  exact ⟨ofConfig_sample, hother, actions, others, hactions, hothers, hundisturbed, halike⟩

end Screen

end InfoScreen
