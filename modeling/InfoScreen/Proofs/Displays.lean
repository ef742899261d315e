import InfoScreen.Proofs.Schedule
import InfoScreen.Proofs.Trace

/-!
# Patterns that are displayed in full

The check of a pattern looks at columns only, and the scheduler at the memory port only.  They
agree all the same: without captions a pattern passes its check exactly if the scheduler, run on
the unchecked pattern, succeeds and shows every nibble and every label.
-/

namespace InfoScreen

namespace Config

/-- Every nibble of every byte is shown in every scheduled row, and so is every label if labels are
on. -/
structure Displays (config : Config) (schedule : Schedule) : Prop where
  nibbles : ∀ row ∈ config.scheduledRows, ∀ k < config.pattern.bytesPerRow, ∀ nibble,
    ∃ action ∈ schedule.actions, action.cell = ⟨row, config.pattern.nibbleColumn k nibble⟩ ∧
      ∃ readSlot, action.paint = some (.fetched nibble readSlot)
  labels : config.addressLabels = true → ∀ row ∈ config.scheduledRows, ∀ nibble,
    ∃ action ∈ schedule.actions, action.cell = ⟨row, config.pattern.labelColumn nibble⟩ ∧
      ∃ offset, action.paint = some (.cursorAddress nibble offset)

end Config

namespace Schedule

/-- A row either continues the bank or opens the next one, and then the port is empty. -/
theorem Progress.enterRow_cases {progress next : Progress} {rowsPerBank : Option UInt16}
    {index slot : Nat} (h : progress.enterRow rowsPerBank index slot = .ok next) :
    next = progress ∨ index ≠ 0 ∧ progress.cursor.port = {} ∧ next =
      { progress with bankStarts := progress.bankStarts.push slot, bank := progress.bank + 1 } := by
  unfold enterRow at h
  split at h
  · exact .inl (Outcome.pure_eq_ok.mp h).symm
  · split at h
    next => exact .inl (Outcome.pure_eq_ok.mp h).symm
    next hindex =>
      rw [Outcome.guard_halt_eq_ok] at h
      obtain ⟨-, h⟩ := h
      split at h
      · obtain ⟨hdrain, h⟩ := Outcome.check_bind_eq_ok.mp h
        have hempty := Pipeline.drain_eq_ok_iff.mp hdrain
        exact .inr ⟨hindex, hempty, (Outcome.pure_eq_ok.mp h).symm⟩
      · exact .inl (Outcome.pure_eq_ok.mp h).symm

theorem Progress.actions_of_enterRow {progress next : Progress} {rowsPerBank : Option UInt16}
    {index slot : Nat} (h : progress.enterRow rowsPerBank index slot = .ok next) :
    next.actions = progress.actions := by
  rcases enterRow_cases h with rfl | ⟨-, -, rfl⟩
  · rfl
  · rfl

variable {config : Config} {layout : Layout} {schedule : Schedule}

/-- What a schedule that was built says about the plan, its actions and its first row. -/
theorem build_eq_ok (h : build config layout = .ok schedule) {row count : Nat}
    (hrows : config.scheduledRows = List.range' row (count + 1)) :
    ∃ plan, config.pattern.rowPlan config.addressLabels = .ok plan ∧
      (∀ action ∈ schedule.actions, ∀ paint, action.paint = some paint →
        (roleOf (config.pattern.claims config.addressLabels) action.cell.col).Fits paint) ∧
      ∃ actions cursor, RowView.slotActions
        ⟨row, 0, config.startAddress.toNat, config.pattern.byteColumns, layout.columnsOn row⟩
        ⟨config.startAddress.toNat, {}⟩ 0 plan = .ok (actions, cursor) := by
  obtain ⟨plan, hplan, h⟩ := Outcome.bind_eq_ok.mp h
  obtain ⟨-, -, hroles⟩ := (Pattern.rowPlan_eq_ok_iff plan).mp hplan
  obtain ⟨progress, hprogress, h⟩ := Outcome.bind_eq_ok.mp h
  obtain ⟨-, h⟩ := Outcome.check_bind_eq_ok.mp h
  obtain rfl := Outcome.pure_eq_ok.mp h
  refine ⟨plan, hplan, ?_, ?_⟩
  · have hinvariant := Outcome.foldlM_invariant
      (fun progress : Progress ↦ ∀ action ∈ progress.actions, ∀ paint, action.paint = some paint →
        (roleOf (config.pattern.claims config.addressLabels) action.cell.col).Fits paint)
      (Progress.addRow config layout plan) config.scheduledRows.zipIdx
      (fun line _ progress next hfits hnext ↦ ?_) (by simp) hprogress
    · simpa using hinvariant
    · obtain ⟨entered, hentered, hnext⟩ := Outcome.bind_eq_ok.mp hnext
      obtain ⟨⟨actions, cursor⟩, hactions, hnext⟩ := Outcome.bind_eq_ok.mp hnext
      obtain rfl := Outcome.pure_eq_ok.mp hnext
      intro action haction
      rcases Array.mem_append.mp haction with hbefore | hrow
      · rw [Progress.actions_of_enterRow hentered] at hbefore
        exact hfits action hbefore
      · refine RowView.slotActions_fits (fun i hi ↦ ?_) hactions action (List.mem_toArray.mp hrow)
        simp [hroles]
  · rw [hrows, List.range'_succ, List.zipIdx_cons, List.foldlM_cons] at hprogress
    obtain ⟨next, hnext, -⟩ := Outcome.bind_eq_ok.mp hprogress
    obtain ⟨entered, hentered, hnext⟩ := Outcome.bind_eq_ok.mp hnext
    obtain ⟨⟨actions, cursor⟩, hactions, -⟩ := Outcome.bind_eq_ok.mp hnext
    rcases Progress.enterRow_cases hentered with rfl | ⟨hindex, -⟩
    · exact ⟨actions, cursor, hactions⟩
    · exact absurd rfl hindex

end Schedule

namespace Config

variable {config : Config} {schedule : Schedule}

theorem mem_scheduledRows_iff (hend : config.firstRow.toNat + config.rowCount.toNat < UInt16.size)
    (row : Nat) :
    row ∈ config.scheduledRows ↔ ∃ i < config.rowCount.toNat, row = config.firstRow.toNat + i := by
  rw [scheduledRows_eq hend, List.mem_range']
  simp only [Nat.one_mul]

/-- The schedule of a sound pattern displays it. -/
theorem Schedulable.displays (h : config.Schedulable {}) (hcaptions : config.captions = []) :
    ∃ schedule, Schedule.build config {} = .ok schedule ∧ config.Displays schedule := by
  have hcaptioned : ∀ cell, ¬config.Captioned cell := by
    rintro cell ⟨caption, hcaption, -⟩
    rw [hcaptions] at hcaption
    cases hcaption
  have hmem : ∀ row ∈ config.scheduledRows, ∀ col < gridColumns,
      ∃ i, row = config.firstRow.toNat + i ∧
      config.scheduledAction {} i col ∈ config.scheduledActions {} config.rowCount.toNat := by
    intro row hrow col hcol
    obtain ⟨i, hi, rfl⟩ := (mem_scheduledRows_iff h.rows_lt row).mp hrow
    exact ⟨i, rfl, List.mem_of_getElem? (getElem?_scheduledActions hi hcol)⟩
  refine ⟨_, h.build_eq, fun row hrow k hk nibble ↦ ?_, fun hon row hrow nibble ↦ ?_⟩
  · have hcol : config.pattern.nibbleColumn k nibble < gridColumns := by
      have hgrid := h.sound.byteColumn_lt hk
      cases nibble <;> simp only [Pattern.nibbleColumn] <;> omega
    obtain ⟨i, rfl, haction⟩ := hmem row hrow _ hcol
    have hmasked : ¬config.Masked i k := by
      rintro ⟨nibble, hcell⟩
      exact hcaptioned _ hcell
    refine ⟨_, haction, rfl, (config.requestCell i k).address, ?_⟩
    apply ((h.scheduled i _).paint _).mpr
    exact .nibble hk hmasked
  · have hcol := ((h.sound.labelled hon).free nibble).lt_grid
    obtain ⟨i, rfl, haction⟩ := hmem row hrow _ hcol
    refine ⟨_, haction, rfl, UInt32.ofNat (config.offset i 0), ?_⟩
    apply ((h.scheduled i _).paint _).mpr
    exact .label hon (hcaptioned _)

/-- A schedule that displays a pattern shows that the pattern is sound. -/
theorem Displays.sound (hrows : 0 < config.rowCount.toNat)
    (hend : config.firstRow.toNat + config.rowCount.toNat < UInt16.size)
    (hbytes : config.pattern.bytesPerRow < UInt32.size)
    (hbuild : Schedule.build config {} = .ok schedule) (hdisplays : config.Displays schedule) :
    config.pattern.Sound config.addressLabels := by
  have hfirst : config.scheduledRows =
      List.range' config.firstRow.toNat (config.rowCount.toNat - 1 + 1) := by
    rw [scheduledRows_eq hend, Nat.sub_add_cancel hrows]
  have hmem : config.firstRow.toNat ∈ config.scheduledRows :=
    (mem_scheduledRows_iff hend _).mpr ⟨0, hrows, rfl⟩
  obtain ⟨plan, hplan, hfits, actions, cursor, hactions⟩ := Schedule.build_eq_ok hbuild hfirst
  obtain ⟨hpos, hgrid, rfl⟩ := (Pattern.rowPlan_eq_ok_iff plan).mp hplan
  rw [List.range_eq_range'] at hactions
  obtain ⟨p, htraced⟩ := RowView.Traced.run hbytes rfl gridColumns
    (RowView.Traced.start _ config.pattern config.addressLabels) hactions
  refine Pattern.sound_of_traced hpos hgrid htraced (fun k hk nibble ↦ ?_) (fun hon nibble ↦ ?_)
  · obtain ⟨action, haction, hcell, readSlot, hpaint⟩ := hdisplays.nibbles _ hmem k hk nibble
    have h := hfits action haction _ hpaint
    rwa [hcell] at h
  · obtain ⟨action, haction, hcell, offset, hpaint⟩ := hdisplays.labels hon _ hmem nibble
    have h := hfits action haction _ hpaint
    rwa [hcell] at h

/-- The check of a pattern is exact.  Without captions it accepts a pattern if and only if the
scheduler, run on the unchecked pattern, succeeds and displays all of it. -/
theorem check_pattern_iff_displays (config : Config) (hcaptions : config.captions = [])
    (hrows : 1 ≤ config.rowCount.toNat) (hbank : config.rowsPerBank ≠ some 0)
    (hend : config.firstRow.toNat + config.rowCount.toNat ≤ 65535)
    (hbytes : config.pattern.byteColumns.length < UInt32.size) :
    config.pattern.check config.addressLabels = .ok () ↔
      ∃ schedule, (Layout.ofCaptions config.captions >>= Schedule.build config) = .ok schedule ∧
        config.Displays schedule := by
  have hlayout : Layout.ofCaptions config.captions = .ok {} := by
    rw [hcaptions]
    rfl
  rw [Pattern.check_eq_ok_iff, hlayout, Outcome.ok_bind]
  constructor
  · intro hsound
    have hschedulable : config.Schedulable {} :=
      ⟨hrows, rowsPerBank_ne_zero_iff.mp hbank, Nat.lt_succ_of_le hend, hsound, hlayout⟩
    exact hschedulable.displays hcaptions
  · rintro ⟨schedule, hbuild, hdisplays⟩
    exact hdisplays.sound hrows (Nat.lt_succ_of_le hend) hbytes hbuild

/-- A pattern of two bytes that passes, and the same pattern with the second byte crowding the
first, which does not. -/
theorem check_pattern_iff_displays_two_bytes :
    (∃ schedule, (Layout.ofCaptions [] >>=
        Schedule.build { rowCount := 2, pattern := ⟨2, [4, 6], (0, 1)⟩ }) = .ok schedule ∧
      Displays { rowCount := 2, pattern := ⟨2, [4, 6], (0, 1)⟩ } schedule) ∧
    ¬∃ schedule, (Layout.ofCaptions [] >>=
        Schedule.build { rowCount := 2, pattern := ⟨2, [4, 5], (0, 1)⟩ }) = .ok schedule ∧
      Displays { rowCount := 2, pattern := ⟨2, [4, 5], (0, 1)⟩ } schedule := by
  constructor
  · exact (check_pattern_iff_displays { rowCount := 2, pattern := ⟨2, [4, 6], (0, 1)⟩ } rfl
      (by decide) (by decide) (by decide) (by decide)).mp rfl
  · rintro hdisplays
    have hcheck := (check_pattern_iff_displays { rowCount := 2, pattern := ⟨2, [4, 5], (0, 1)⟩ } rfl
      (by decide) (by decide) (by decide) (by decide)).mpr hdisplays
    cases hcheck

end Config

end InfoScreen
