import InfoScreen.Proofs.Schedule

/-!
# Exact offsets

The cursor of the scheduler is wider than the offsets that it hands out.  A run can be stopped in
front of any column of any scheduled row, and what the scheduler is about to convert there is known:
the offsets of the bytes of the row, and the cursor itself where the column requests a byte.  Each
of them is at most the last offset of the schedule, which was checked in advance, and so nothing is
lost.  Behind the last byte the cursor may be too wide, but there it is not converted any more.
-/

namespace InfoScreen

namespace Schedule

structure Stop where
  view : RowView
  cursor : Cursor
  role : Role

/-- The scheduler, run up to column `col` of row number `index`. -/
def stopAt (config : Config) (layout : Layout) (index col : Nat) : Outcome Stop := do
  let plan ← config.pattern.rowPlan config.addressLabels
  let start : Progress :=
    { bankStarts := #[config.firstRow.toNat * gridColumns]
      cursor := { address := config.startAddress.toNat } }
  let progress ←
    (config.scheduledRows.zipIdx.take index).foldlM (Progress.addRow config layout plan) start
  let row := config.firstRow.toNat + index
  let progress ← progress.enterRow config.rowsPerBank index (row * gridColumns)
  let view : RowView :=
    { row, bank := progress.bank, start := progress.cursor.address,
      byteColumns := config.pattern.byteColumns, captioned := layout.columnsOn row }
  let (_, cursor) ← view.slotActions progress.cursor 0 (plan.take col)
  match plan[col]? with
  | none => halt (.indexPastEnd plan.length col)
  | some role => pure ⟨view, cursor, role⟩

/-- Nothing is lost when the scheduler goes on through a column: the offsets of the `bytes` bytes of
the row are exact, and a byte is requested by the very cursor that the column leaves behind. -/
structure Stop.Exact (stop : Stop) (bytes col : Nat) (action : Action) : Prop where
  offset : ∀ k < bytes, (stop.view.offset k).toNat = stop.view.start + k
  request : ∃ next, stop.view.slotAction stop.cursor col stop.role = .ok (action, next) ∧
    ∀ offset, action.read = some offset → offset.toNat = next.address

end Schedule

namespace Config.Schedulable

variable {config : Config} {layout : Layout}

/-- A stopped scheduler is in the row and has the cursor that its place tells. -/
theorem stopAt_eq (h : config.Schedulable layout) {i col : Nat} (hi : i < config.rowCount.toNat)
    (hcol : col < gridColumns) :
    ∃ k, config.pattern.NextByte k col ∧ Schedule.stopAt config layout i col =
      .ok ⟨config.rowView layout i, (config.rowView layout i).cursorBefore config.pattern k col,
        roleOf (config.pattern.claims config.addressLabels) col⟩ := by
  obtain ⟨k, hnext, hactions⟩ := (config.rowView layout i).slotActions_upTo h.sound
    (h.rowView_row_lt hi) col
  have hplan := h.sound.rowPlan_eq
  have hrows := h.foldlM_addRow_eq (Nat.le_of_lt hi)
  have hrole : ((List.range gridColumns).map
      (roleOf (config.pattern.claims config.addressLabels)))[col]? =
        some (roleOf (config.pattern.claims config.addressLabels) col) := by
    rw [List.getElem?_map, List.getElem?_range hcol, Option.map_some]
  have htake : ((List.range gridColumns).map
      (roleOf (config.pattern.claims config.addressLabels))).take col =
        (List.range col).map (roleOf (config.pattern.claims config.addressLabels)) := by
    rw [← List.map_take, List.take_range, Nat.min_eq_left (Nat.le_of_lt hcol)]
  rw [progressBefore_zero] at hrows
  refine ⟨k, hnext, ?_⟩
  simp only [Schedule.stopAt, hplan, hrows, h.enterRow_eq, hrole, htake, Outcome.ok_bind]
  exact Outcome.bind_eq_ok.mpr ⟨_, hactions, rfl⟩

/-- Going on from a stopped scheduler gives the action that is tabulated for the column, and if that
requests byte `k`, the cursor it leaves behind stands at byte `k`. -/
theorem slotAction_of_stopAt (h : config.Schedulable layout) {i col : Nat}
    (hi : i < config.rowCount.toNat) (hcol : col < gridColumns) :
    ∃ stop next, Schedule.stopAt config layout i col = .ok stop ∧
      stop.view = config.rowView layout i ∧
      stop.view.slotAction stop.cursor col stop.role =
        .ok (config.scheduledAction layout i col, next) ∧
      ∀ k < config.pattern.bytesPerRow, col = config.pattern.requestColumn k →
        next.address = config.offset i k := by
  obtain ⟨j, hbefore, hstop⟩ := h.stopAt_eq hi hcol
  obtain ⟨next, hnext, hstep⟩ := (config.rowView layout i).slotAction_eq h.sound
    (h.rowView_row_lt hi) hbefore
  refine ⟨_, _, hstop, rfl, hstep, ?_⟩
  rintro k hk rfl
  obtain rfl := hnext.eq_of_request h.sound.toOrdered hk
  rfl

end Config.Schedulable

namespace Screen

variable {config : Config} {screen : Screen}

/-- The scheduler of an accepted configuration loses nothing in any column of any row. -/
theorem exact_of_stopAt (h : ofConfig config = .ok screen) {i col : Nat}
    (hi : i < config.rowCount.toNat) (hcol : col < gridColumns) :
    ∃ stop, Schedule.stopAt config screen.layout i col = .ok stop ∧
      stop.Exact config.pattern.bytesPerRow col
        (config.scheduledAction screen.layout i col) := by
  have hexact : ∀ k < config.pattern.bytesPerRow,
      (UInt32.ofNat (config.offset i k)).toNat = config.offset i k :=
    fun k hk ↦ UInt32.toNat_ofNat_of_lt' (offset_lt h hi hk)
  obtain ⟨stop, next, hstop, hview, hstep, hrequest⟩ :=
    (schedulable h).slotAction_of_stopAt hi hcol
  refine ⟨stop, hstop, ⟨fun k hk ↦ ?_, next, hstep, fun offset hread ↦ ?_⟩⟩
  · rw [hview]
    exact hexact k hk
  · obtain ⟨k, hk, -, hk', rfl⟩ :=
      ((schedulable h).scheduledAction_read_iff i col offset).mp hread
    rw [hexact k hk, hrequest k hk hk']

end Screen

end InfoScreen
