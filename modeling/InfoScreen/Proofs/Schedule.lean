import InfoScreen.Proofs.Row
import InfoScreen.Proofs.Schedulable

/-!
# The schedule in closed form

Rows are scheduled one after the other, with an empty port between them.  So after `i` rows the
state of the scheduler is known, and the whole schedule is a table of actions that are told by row
and column alone: which byte a column requests or shows, unless a caption hides it, and which label
it paints.
-/

namespace InfoScreen

namespace Config

def rowView (config : Config) (layout : Layout) (i : Nat) : RowView where
  row := config.firstRow.toNat + i
  bank := config.rowBank i
  start := config.offset i 0
  byteColumns := config.pattern.byteColumns
  captioned := layout.columnsOn (config.firstRow.toNat + i)

def scheduledAction (config : Config) (layout : Layout) (i col : Nat) : Action :=
  (config.rowView layout i).actionFor config.pattern col
    (roleOf (config.pattern.claims config.addressLabels) col)

def scheduledActions (config : Config) (layout : Layout) (rows : Nat) : List Action :=
  (List.range (gridColumns * rows)).map fun n ↦
    config.scheduledAction layout (n / gridColumns) (n % gridColumns)

/-- The first slots of the banks up to that of scheduled row `i`. -/
def bankStartsTo (config : Config) (i : Nat) : List Nat :=
  (List.range (config.rowBank i + 1)).map config.bankStart

def progressBefore (config : Config) (layout : Layout) (i : Nat) : Schedule.Progress where
  actions := (config.scheduledActions layout i).toArray
  bankStarts := (config.bankStartsTo (i - 1)).toArray
  bank := config.rowBank (i - 1)
  cursor := ⟨config.offset i 0, {}⟩

/-- What is painted in a column of scheduled row `i`, told without the scheduler. -/
inductive Shows (config : Config) (i : Nat) : (col : Nat) → Paint → Prop
  /-- A nibble of a byte that is not masked, from the slot in which the byte is requested. -/
  | nibble {k : Nat} {nibble : Nibble} (hk : k < config.pattern.bytesPerRow)
      (hmasked : ¬config.Masked i k) :
      Shows config i (config.pattern.nibbleColumn k nibble)
        (.fetched nibble (config.requestCell i k).address)
  /-- A nibble of the offset of the row's first byte, where no caption is. -/
  | label {nibble : Nibble} (hon : config.addressLabels = true)
      (hcovered : ¬config.Captioned (config.labelCell i nibble)) :
      Shows config i (config.pattern.labelColumn nibble)
        (.cursorAddress nibble (UInt32.ofNat (config.offset i 0)))

/-- The action of a column of scheduled row `i`, told without the scheduler. -/
structure Scheduled (config : Config) (i col : Nat) (action : Action) : Prop where
  cell : action.cell = ⟨config.firstRow.toNat + i, col⟩
  slot : action.slot = (config.firstRow.toNat + i) * gridColumns + col
  bank : action.bank = config.rowBank i
  read : ∀ offset, action.read = some offset ↔
    ∃ k < config.pattern.bytesPerRow, ¬config.Masked i k ∧
      col = config.pattern.requestColumn k ∧ offset = UInt32.ofNat (config.offset i k)
  paint : ∀ paint, action.paint = some paint ↔ config.Shows i col paint

variable {config : Config} {layout : Layout}

theorem scheduledActions_succ (config : Config) (layout : Layout) (rows : Nat) :
    config.scheduledActions layout (rows + 1) =
      config.scheduledActions layout rows ++
        (List.range gridColumns).map (config.scheduledAction layout rows) := by
  rw [scheduledActions, Nat.mul_succ, List.range_add, List.map_append, List.map_map]
  congr 1
  apply List.map_congr_left
  intro col hcol
  have hcol := List.mem_range.mp hcol
  have hpos : 0 < gridColumns := by decide
  rw [Function.comp_apply, Nat.mul_add_div hpos, Nat.mul_add_mod, Nat.div_eq_of_lt hcol,
    Nat.mod_eq_of_lt hcol, Nat.add_zero]

namespace Schedulable

/-- A row that does not end a bank's share leaves the bank as it is. -/
theorem progress_same_bank {i : Nat} (hbank : config.rowBank i = config.rowBank (i - 1)) :
    config.progressBefore layout i =
      { config.progressBefore layout i with
        bankStarts := (config.bankStartsTo i).toArray
        bank := config.rowBank i } := by
  simp only [progressBefore, bankStartsTo, hbank]

/-- A row starts a new bank exactly if its bank is new, and the port is drained at the seam. -/
theorem enterRow_eq (h : config.Schedulable layout) (i : Nat) :
    (config.progressBefore layout i).enterRow config.rowsPerBank i
        ((config.firstRow.toNat + i) * gridColumns) =
      .ok { config.progressBefore layout i with
        bankStarts := (config.bankStartsTo i).toArray
        bank := config.rowBank i } := by
  unfold Schedule.Progress.enterRow
  cases hrows : config.rowsPerBank with
  | none =>
    have hbank : config.rowBank i = config.rowBank (i - 1) := by
      simp only [rowBank, hrows]
    exact congrArg Except.ok (progress_same_bank hbank)
  | some rows =>
    dsimp only
    cases i with
    | zero => exact congrArg Except.ok (progress_same_bank rfl)
    | succ i =>
      have hsucc := h.rowBank_succ i
      simp only [hrows] at hsucc
      rw [if_neg (Nat.succ_ne_zero i), if_neg (h.rowsPerBank_ne_zero hrows)]
      by_cases hseam : (i + 1) % rows.toNat = 0
      · rw [if_pos hseam] at hsucc ⊢
        have hstart : config.bankStart (config.rowBank (i + 1)) =
            (config.firstRow.toNat + (i + 1)) * gridColumns := by
          simp only [bankStart, rowBank, hrows, Nat.div_mul_cancel (Nat.dvd_of_mod_eq_zero hseam)]
        have hstarts : config.bankStartsTo (i + 1) =
            config.bankStartsTo i ++ [(config.firstRow.toNat + (i + 1)) * gridColumns] := by
          rw [bankStartsTo, List.range_succ, List.map_append, List.map_singleton, hstart, hsucc]
          rfl
        have hdrain : (config.progressBefore layout (i + 1)).cursor.port.drain
            ((config.firstRow.toNat + (i + 1)) * gridColumns) = .ok () :=
          Pipeline.drain_eq_ok_iff.mpr rfl
        rw [hdrain, Outcome.ok_bind, hstarts, hsucc, ← List.push_toArray]
        rfl
      · rw [if_neg hseam] at hsucc ⊢
        exact congrArg Except.ok (progress_same_bank hsucc)

theorem rowView_row_lt (h : config.Schedulable layout) {i : Nat} (hi : i < config.rowCount.toNat) :
    (config.rowView layout i).row < UInt16.size := by
  have hrows := h.rows_lt
  simp only [rowView]
  omega

/-- One step of the schedule. -/
theorem addRow_eq (h : config.Schedulable layout) {i : Nat} (hi : i < config.rowCount.toNat) :
    Schedule.Progress.addRow config layout
        ((List.range gridColumns).map (roleOf (config.pattern.claims config.addressLabels)))
        (config.progressBefore layout i) (config.firstRow.toNat + i, i) =
      .ok (config.progressBefore layout (i + 1)) := by
  have hactions : (config.rowView layout i).slotActions (config.progressBefore layout i).cursor 0
      ((List.range gridColumns).map (roleOf (config.pattern.claims config.addressLabels))) =
        .ok ((List.range gridColumns).map (config.scheduledAction layout i),
          ⟨config.offset i 0 + config.pattern.bytesPerRow, {}⟩) :=
    RowView.slotActions_row h.sound (h.rowView_row_lt hi)
  have hnext : config.progressBefore layout (i + 1) =
      { actions := (config.progressBefore layout i).actions ++
          ((List.range gridColumns).map (config.scheduledAction layout i)).toArray
        bankStarts := (config.bankStartsTo i).toArray
        bank := config.rowBank i
        cursor := ⟨config.offset i 0 + config.pattern.bytesPerRow, {}⟩ } := by
    simp only [progressBefore, scheduledActions_succ, offset_add_bytesPerRow, Nat.add_sub_cancel,
      List.append_toArray]
  simp only [Schedule.Progress.addRow, h.enterRow_eq, Outcome.ok_bind]
  refine Outcome.bind_eq_ok.mpr ⟨_, hactions, ?_⟩
  rw [hnext]
  rfl

theorem length_scheduledRows (h : config.Schedulable layout) :
    config.scheduledRows.length = config.rowCount.toNat := by
  rw [scheduledRows_eq h.rows_lt, List.length_range']

theorem getElem?_zipIdx_scheduledRows (h : config.Schedulable layout) {i : Nat}
    (hi : i < config.rowCount.toNat) :
    config.scheduledRows.zipIdx[i]? = some (config.firstRow.toNat + i, i) := by
  rw [scheduledRows_eq h.rows_lt, List.getElem?_zipIdx, List.getElem?_range' hi, Option.map_some,
    Nat.one_mul, Nat.zero_add]

/-- The first rows of the schedule, done one after the other. -/
theorem foldlM_addRow_eq (h : config.Schedulable layout) {rows : Nat}
    (hrows : rows ≤ config.rowCount.toNat) :
    (config.scheduledRows.zipIdx.take rows).foldlM
        (Schedule.Progress.addRow config layout
          ((List.range gridColumns).map (roleOf (config.pattern.claims config.addressLabels))))
        (config.progressBefore layout 0) =
      .ok (config.progressBefore layout rows) := by
  have hlength : (config.scheduledRows.zipIdx.take rows).length = rows := by
    rw [List.length_take, List.length_zipIdx, h.length_scheduledRows, Nat.min_eq_left hrows]
  obtain ⟨last, hlast, hend⟩ := Outcome.foldlM_of_invariant
    (fun i progress ↦ progress = config.progressBefore layout i)
    (Schedule.Progress.addRow config layout
      ((List.range gridColumns).map (roleOf (config.pattern.claims config.addressLabels))))
    (config.scheduledRows.zipIdx.take rows)
    (fun i hi progress hprogress ↦ by
      have hi' : i < rows := hlength ▸ hi
      have hline : (config.scheduledRows.zipIdx.take rows)[i] = (config.firstRow.toNat + i, i) := by
        apply Option.some.inj
        rw [← List.getElem?_eq_getElem, List.getElem?_take_of_lt hi',
          h.getElem?_zipIdx_scheduledRows (Nat.lt_of_lt_of_le hi' hrows)]
      rw [hprogress, hline]
      exact ⟨_, h.addRow_eq (Nat.lt_of_lt_of_le hi' hrows), rfl⟩)
    (config.progressBefore layout 0) rfl
  rw [hlast, hend, hlength]

theorem progressBefore_zero (config : Config) (layout : Layout) :
    config.progressBefore layout 0 =
      { bankStarts := #[config.firstRow.toNat * gridColumns]
        cursor := { address := config.startAddress.toNat } } := by
  have hfirst : config.bankStart 0 = config.firstRow.toNat * gridColumns := by
    unfold bankStart
    split <;> simp
  simp [progressBefore, bankStartsTo, rowBank_zero, hfirst, scheduledActions, offset]

/-- The scheduler succeeds, with the actions, bank starts and final offset told in closed form. -/
theorem build_eq (h : config.Schedulable layout) :
    Schedule.build config layout =
      .ok ⟨config.scheduledActions layout config.rowCount.toNat,
        (List.range config.bankCount).map config.bankStart,
        config.offset config.rowCount.toNat 0⟩ := by
  have hplan := h.sound.rowPlan_eq
  have hfold := h.foldlM_addRow_eq (Nat.le_refl _)
  have hall : config.scheduledRows.zipIdx.take config.rowCount.toNat =
      config.scheduledRows.zipIdx := by
    apply List.take_of_length_le
    exact Nat.le_of_eq (List.length_zipIdx.trans h.length_scheduledRows)
  have hdrain : (config.progressBefore layout config.rowCount.toNat).cursor.port.drain
      (config.endRow * gridColumns) = .ok () := Pipeline.drain_eq_ok_iff.mpr rfl
  rw [hall, progressBefore_zero] at hfold
  simp only [Schedule.build, hplan, Outcome.ok_bind, hfold, hdrain]
  rw [h.bankCount_eq]
  rfl

/-! ## What the actions do -/

theorem covered_iff (h : config.Schedulable layout) (i col : Nat) :
    (config.rowView layout i).covered col = true ↔
      config.Captioned ⟨config.firstRow.toNat + i, col⟩ := by
  rw [h.captioned_iff, Layout.covers_iff, ← Layout.mem_columnsOn_iff]
  exact List.contains_iff_mem

theorem masked_iff (h : config.Schedulable layout) (i : Nat) {k : Nat}
    (hk : k < config.pattern.bytesPerRow) :
    (config.rowView layout i).masked k = true ↔ config.Masked i k := by
  have hcol : (config.rowView layout i).byteColumns[k]? =
      some (config.pattern.byteColumns.getD k 0) := Pattern.getElem?_byteColumns hk
  simp only [RowView.masked, hcol, Bool.or_eq_true, h.covered_iff, Masked]
  constructor
  · rintro (hhigh | hlow)
    · exact ⟨.high, hhigh⟩
    · exact ⟨.low, hlow⟩
  · rintro ⟨nibble, hcaptioned⟩
    cases nibble with
    | high => exact .inl hcaptioned
    | low => exact .inr hcaptioned

theorem scheduledAction_read_iff (h : config.Schedulable layout) (i col : Nat) (offset : UInt32) :
    (config.scheduledAction layout i col).read = some offset ↔
      ∃ k < config.pattern.bytesPerRow, ¬config.Masked i k ∧
        col = config.pattern.requestColumn k ∧ offset = UInt32.ofNat (config.offset i k) := by
  change (config.rowView layout i).requested _ = some offset ↔ _
  simp only [RowView.requested_eq_some_iff, h.sound.requests?_eq_some_iff]
  constructor
  · rintro ⟨k, ⟨hk, hcol⟩, hmasked, hoffset⟩
    rw [← Bool.not_eq_true, h.masked_iff i hk] at hmasked
    exact ⟨k, hk, hmasked, hcol, hoffset.symm⟩
  · rintro ⟨k, hk, hmasked, hcol, hoffset⟩
    rw [← h.masked_iff i hk, Bool.not_eq_true] at hmasked
    exact ⟨k, ⟨hk, hcol⟩, hmasked, hoffset.symm⟩

theorem scheduledAction_paint_iff (h : config.Schedulable layout) (i col : Nat) (paint : Paint) :
    (config.scheduledAction layout i col).paint = some paint ↔ config.Shows i col paint := by
  change (config.rowView layout i).shown config.pattern col _ = some paint ↔ _
  simp only [RowView.shown_eq_some_iff, h.sound.shows?_eq_some_iff, h.sound.roleOf_eq_label_iff]
  constructor
  · rintro (⟨k, nibble, ⟨hk, rfl⟩, hmasked, rfl⟩ | ⟨nibble, ⟨hon, rfl⟩, hcovered, rfl⟩)
    · rw [← Bool.not_eq_true, h.masked_iff i hk] at hmasked
      exact .nibble hk hmasked
    · rw [← Bool.not_eq_true, h.covered_iff] at hcovered
      exact .label hon hcovered
  · rintro (⟨hk, hmasked⟩ | ⟨hon, hcovered⟩)
    · rw [← h.masked_iff i hk, Bool.not_eq_true] at hmasked
      exact .inl ⟨_, _, ⟨hk, rfl⟩, hmasked, rfl⟩
    · rw [labelCell, ← h.covered_iff, Bool.not_eq_true] at hcovered
      exact .inr ⟨_, ⟨hon, rfl⟩, hcovered, rfl⟩

/-- The action of every column does what the table says. -/
theorem scheduled (h : config.Schedulable layout) (i col : Nat) :
    config.Scheduled i col (config.scheduledAction layout i col) where
  cell := rfl
  slot := rfl
  bank := rfl
  read := h.scheduledAction_read_iff i col
  paint := h.scheduledAction_paint_iff i col

theorem bankStart_lt (h : config.Schedulable layout) {bank other : Nat}
    (hother : other < config.bankCount) (hlt : bank < other) :
    config.bankStart bank < config.bankStart other := by
  unfold bankStart
  cases hrows : config.rowsPerBank with
  | none =>
    have hone : config.bankCount = 1 := by simp only [bankCount, hrows]
    omega
  | some rows =>
    have hstep := Nat.mul_lt_mul_of_pos_right hlt (h.bank_pos rows hrows)
    simp only [gridColumns]
    omega

end Schedulable

theorem getElem?_scheduledActions {rows i col : Nat} (hi : i < rows) (hcol : col < gridColumns) :
    (config.scheduledActions layout rows)[gridColumns * i + col]? =
      some (config.scheduledAction layout i col) := by
  have hpos : 0 < gridColumns := by decide
  have hlt : gridColumns * i + col < gridColumns * rows := by
    have := Nat.mul_le_mul_left gridColumns hi
    rw [Nat.mul_succ] at this
    omega
  rw [scheduledActions, List.getElem?_map, List.getElem?_range hlt, Option.map_some,
    Nat.mul_add_div hpos, Nat.mul_add_mod, Nat.div_eq_of_lt hcol, Nat.mod_eq_of_lt hcol,
    Nat.add_zero]

theorem mem_scheduledActions_iff {rows : Nat} {action : Action} :
    action ∈ config.scheduledActions layout rows ↔
      ∃ i < rows, ∃ col < gridColumns, action = config.scheduledAction layout i col := by
  constructor
  · intro haction
    obtain ⟨n, hn, rfl⟩ := List.mem_map.mp haction
    have hn := List.mem_range.mp hn
    exact ⟨n / gridColumns, Nat.div_lt_of_lt_mul hn, n % gridColumns,
      Nat.mod_lt n (by decide), rfl⟩
  · rintro ⟨i, hi, col, hcol, rfl⟩
    exact List.mem_of_getElem? (getElem?_scheduledActions hi hcol)

/-- A schedule told without the scheduler: its actions row by row, its bank starts and its final
offset. -/
structure Tabulated (config : Config) (schedule : Schedule) : Prop where
  length : schedule.actions.length = gridColumns * config.rowCount.toNat
  actions : ∀ i < config.rowCount.toNat, ∀ col < gridColumns, ∃ action,
    schedule.actions[gridColumns * i + col]? = some action ∧ config.Scheduled i col action
  bankStarts : schedule.bankStarts = (List.range config.bankCount).map config.bankStart
  ascending : schedule.bankStarts.Pairwise (· < ·)
  finalAddress : schedule.finalAddress = config.offset config.rowCount.toNat 0

end Config

namespace Screen

variable {config : Config} {screen : Screen}

/-- What an accepted configuration schedules. -/
theorem schedule_eq (h : ofConfig config = .ok screen) :
    screen.schedule = .ok ⟨config.scheduledActions screen.layout config.rowCount.toNat,
      (List.range config.bankCount).map config.bankStart,
      config.offset config.rowCount.toNat 0⟩ := by
  obtain ⟨-, hconfig, -⟩ := ofConfig_eq_ok_iff.mp h
  rw [schedule, hconfig]
  exact (schedulable h).build_eq

/-- Every accepted configuration is scheduled without a violation of the memory protocol, and its
schedule is the tabulated one.  The offsets in the table are exact, and the column in which the
table requests a byte is the one that the pattern gives for it. -/
theorem schedule_tabulated (h : ofConfig config = .ok screen) :
    (∃ schedule, screen.schedule = .ok schedule ∧ config.Tabulated schedule) ∧
      ∀ k < config.pattern.bytesPerRow,
        config.pattern.readColumnOf k = .ok (config.pattern.requestColumn k) ∧
        ∀ i < config.rowCount.toNat,
          (UInt32.ofNat (config.offset i k)).toNat = config.offset i k := by
  have hschedulable := schedulable h
  refine ⟨⟨_, schedule_eq h, ?_⟩, fun k hk ↦ ⟨hschedulable.sound.readColumnOf_eq hk, fun i hi ↦ ?_⟩⟩
  · refine ⟨?_, fun i hi col hcol ↦ ?_, rfl, ?_, rfl⟩
    · rw [Config.scheduledActions, List.length_map, List.length_range]
    · exact ⟨_, Config.getElem?_scheduledActions hi hcol, hschedulable.scheduled i col⟩
    · refine List.pairwise_map.mpr (List.pairwise_lt_range.imp_of_mem fun _ hother hlt ↦ ?_)
      exact hschedulable.bankStart_lt (List.mem_range.mp hother) hlt
  · exact UInt32.toNat_ofNat_of_lt' (offset_lt h hi hk)

theorem schedule_tabulated_sample :
    ofConfig .sample = .ok sample ∧
      ∃ schedule, sample.schedule = .ok schedule ∧ Config.sample.Tabulated schedule :=
  ⟨ofConfig_sample, (schedule_tabulated ofConfig_sample).1⟩

end Screen

end InfoScreen
