import InfoScreen.Screen
import InfoScreen.Proofs.Layout
import InfoScreen.Proofs.RowPlan

/-!
# Configurations that can be scheduled

The first half names what a configuration means on the screen, without the scheduler: the cells of
its bytes and labels, the offsets of its bytes, the bytes hidden by captions and the banks of its
rows.  The second half collects what the scheduler relies on; every configuration that is accepted
has it, and its offsets moreover fit their 32-bit numbers.
-/

namespace InfoScreen

namespace Config

def Captioned (config : Config) (cell : Cell) : Prop :=
  ∃ caption ∈ config.captions, ∃ literal ∈ caption.cells, literal.cell = cell

def nibbleCell (config : Config) (i k : Nat) (nibble : Nibble) : Cell :=
  ⟨config.firstRow.toNat + i, config.pattern.nibbleColumn k nibble⟩

/-- The cell in whose slot byte `k` of scheduled row `i` is requested. -/
def requestCell (config : Config) (i k : Nat) : Cell :=
  ⟨config.firstRow.toNat + i, config.pattern.requestColumn k⟩

def labelCell (config : Config) (i : Nat) (nibble : Nibble) : Cell :=
  ⟨config.firstRow.toNat + i, config.pattern.labelColumn nibble⟩

def Masked (config : Config) (i k : Nat) : Prop :=
  ∃ nibble, config.Captioned (config.nibbleCell i k nibble)

def offset (config : Config) (i k : Nat) : Nat :=
  config.startAddress.toNat + i * config.pattern.bytesPerRow + k

structure Visible (config : Config) (i k : Nat) : Prop where
  row_lt : i < config.rowCount.toNat
  byte_lt : k < config.pattern.bytesPerRow
  unmasked : ¬config.Masked i k

def rowBank (config : Config) (i : Nat) : Nat :=
  match config.rowsPerBank with
  | none => 0
  | some rows => i / rows.toNat

/-- The bank of a screen row.  Rows outside the schedule go to the nearest bank. -/
def bankAt (config : Config) (row : Nat) : Nat :=
  match config.rowsPerBank with
  | none => 0
  | some rows => min ((row - config.firstRow.toNat) / rows.toNat) (config.bankCount - 1)

def bankStart (config : Config) (bank : Nat) : Nat :=
  match config.rowsPerBank with
  | none => config.firstRow.toNat * gridColumns
  | some rows => (config.firstRow.toNat + bank * rows.toNat) * gridColumns

/-- What a configuration and its layout must have to be scheduled. -/
structure Schedulable (config : Config) (layout : Layout) : Prop where
  rows_pos : 0 < config.rowCount.toNat
  bank_pos : ∀ rows, config.rowsPerBank = some rows → 0 < rows.toNat
  rows_lt : config.firstRow.toNat + config.rowCount.toNat < UInt16.size
  sound : config.pattern.Sound config.addressLabels
  layout_eq : Layout.ofCaptions config.captions = .ok layout

variable {config : Config} {layout : Layout}

/-- The bytes of a row follow those of the row before. -/
theorem offset_add_bytesPerRow (config : Config) (i : Nat) :
    config.offset i 0 + config.pattern.bytesPerRow = config.offset (i + 1) 0 := by
  simp only [offset, Nat.succ_mul]
  omega

theorem offset_lt_of_lt {i j k l : Nat} (hij : i < j) (hk : k < config.pattern.bytesPerRow) :
    config.offset i k < config.offset j l := by
  calc
    config.offset i k = config.offset i 0 + k := rfl
    _ < config.offset i 0 + config.pattern.bytesPerRow := Nat.add_lt_add_left hk _
    _ = config.offset (i + 1) 0 := config.offset_add_bytesPerRow i
    _ ≤ config.offset j 0 := Nat.add_le_add_left (Nat.mul_le_mul_right _ hij) _
    _ ≤ config.offset j l := Nat.le_add_right _ _

/-- Offsets tell the bytes of the schedule apart, and in which order they come. -/
theorem lt_or_eq_of_offset_le {i j k l : Nat} (hl : l < config.pattern.bytesPerRow)
    (h : config.offset i k ≤ config.offset j l) : i < j ∨ i = j ∧ k ≤ l := by
  rcases Nat.lt_trichotomy i j with hij | rfl | hij
  · exact .inl hij
  · refine .inr ⟨rfl, ?_⟩
    simp only [offset] at h
    omega
  · have hlt : config.offset j l < config.offset i k := offset_lt_of_lt hij hl
    omega

theorem offset_inj {i j k l : Nat} (hk : k < config.pattern.bytesPerRow)
    (hl : l < config.pattern.bytesPerRow) (h : config.offset i k = config.offset j l) :
    i = j ∧ k = l := by
  have hle := lt_or_eq_of_offset_le hl (Nat.le_of_eq h)
  have hge := lt_or_eq_of_offset_le hk (Nat.le_of_eq h.symm)
  omega

/-- The low nibble is shown in the slot after the high nibble. -/
theorem nibbleCell_low_eq (config : Config) (i k : Nat) :
    (config.nibbleCell i k .low).address = (config.nibbleCell i k .high).address + 1 := rfl

/-- The last offset is the one before that of the row after the last. -/
theorem lastOffset_eq (config : Config) :
    config.lastOffset = config.offset config.rowCount.toNat 0 - 1 := by
  rw [lastOffset, offset, Nat.add_zero, Nat.mul_comm]

theorem offset_le_lastOffset {i k : Nat} (hi : i < config.rowCount.toNat)
    (hk : k < config.pattern.bytesPerRow) : config.offset i k ≤ config.lastOffset := by
  rw [lastOffset_eq]
  apply Nat.le_pred_of_lt
  exact offset_lt_of_lt hi hk

/-! ## Banks -/

theorem uint16_ne_zero_iff (n : UInt16) : n ≠ 0 ↔ 0 < n.toNat := by
  rw [Nat.pos_iff_ne_zero, ne_eq, ne_eq, ← UInt16.toNat_inj]
  rfl

theorem rowsPerBank_ne_zero_iff : config.rowsPerBank ≠ some 0 ↔
    ∀ rows, config.rowsPerBank = some rows → 0 < rows.toNat := by
  constructor
  · rintro hne rows hrows
    apply (uint16_ne_zero_iff rows).mp
    rintro rfl
    exact hne hrows
  · intro hpos hrows
    exact Nat.lt_irrefl 0 (hpos 0 hrows)

theorem rowBank_zero (config : Config) : config.rowBank 0 = 0 := by
  unfold rowBank
  split <;> simp

theorem scheduledRows_eq (hend : config.firstRow.toNat + config.rowCount.toNat < UInt16.size) :
    config.scheduledRows = List.range' config.firstRow.toNat config.rowCount.toNat := by
  have hrow : config.endRow = config.firstRow.toNat + config.rowCount.toNat :=
    Nat.min_eq_left (Nat.le_pred_of_lt hend)
  rw [scheduledRows, hrow, Nat.add_sub_cancel_left]

/-- Every row has a bank if there are rows to split or the rows are not split. -/
theorem bankOfRow_eq_ok
    (h : 0 < config.rowCount.toNat ∨ ∀ rows, config.rowsPerBank = some rows → rows = 0)
    (row : Nat) : config.bankOfRow row = .ok (config.bankAt row) := by
  unfold bankOfRow bankAt
  cases hrows : config.rowsPerBank with
  | none => rfl
  | some rows =>
    dsimp only
    by_cases hzero : rows = 0
    · rw [if_pos hzero, hzero, UInt16.toNat_zero, Nat.div_zero, Nat.zero_min]
      rfl
    · have hpos : 0 < rows.toNat := Nat.pos_of_ne_zero fun h ↦ hzero (UInt16.toNat_inj.mp h)
      have hcount : config.bankCount ≠ 0 := by
        rcases h with hcount | hnone
        · simp only [bankCount, hrows, if_neg hzero]
          exact Nat.ne_of_gt (Nat.div_pos (by omega) hpos)
        · exact absurd (hnone rows hrows) hzero
      rw [if_neg hzero, if_neg hcount]
      rfl

/-- Banks follow each other down the screen. -/
theorem bankAt_mono (config : Config) {row other : Nat} (hle : row ≤ other) :
    config.bankAt row ≤ config.bankAt other := by
  unfold bankAt
  split
  · exact Nat.le_refl _
  · next rows _ =>
    have hdiv : (row - config.firstRow.toNat) / rows.toNat ≤
        (other - config.firstRow.toNat) / rows.toNat := Nat.div_le_div_right (by omega)
    omega

namespace Schedulable

theorem rowsPerBank_ne_zero (h : config.Schedulable layout) {rows : UInt16}
    (hrows : config.rowsPerBank = some rows) : rows ≠ 0 :=
  (uint16_ne_zero_iff rows).mpr (h.bank_pos rows hrows)

theorem captioned_iff (h : config.Schedulable layout) (cell : Cell) :
    config.Captioned cell ↔ layout.covers cell = true := by
  rw [Layout.covers_iff, Layout.ofCaptions_cells h.layout_eq]
  simp only [Captioned, List.mem_flatMap]
  constructor
  · rintro ⟨caption, hcaption, literal, hliteral, hcell⟩
    exact ⟨literal, ⟨caption, hcaption, hliteral⟩, hcell⟩
  · rintro ⟨literal, ⟨caption, hcaption, hliteral⟩, hcell⟩
    exact ⟨caption, hcaption, literal, hliteral, hcell⟩

/-- The row after row `i` is in the same bank, unless a full bank ends between them. -/
theorem rowBank_succ (h : config.Schedulable layout) (i : Nat) :
    config.rowBank (i + 1) = config.rowBank i +
      match config.rowsPerBank with
      | none => 0
      | some rows => if (i + 1) % rows.toNat = 0 then 1 else 0 := by
  unfold rowBank
  cases hrows : config.rowsPerBank with
  | none => rfl
  | some rows =>
    have hpos := h.bank_pos rows hrows
    simp only [Nat.succ_div, Nat.dvd_iff_mod_eq_zero]

/-- There are as many banks as the last row's bank says. -/
theorem bankCount_eq (h : config.Schedulable layout) :
    config.bankCount = config.rowBank (config.rowCount.toNat - 1) + 1 := by
  have hcount := h.rows_pos
  unfold bankCount rowBank
  cases hrows : config.rowsPerBank with
  | none => rfl
  | some rows =>
    have hpos := h.bank_pos rows hrows
    dsimp only
    rw [if_neg (h.rowsPerBank_ne_zero hrows), show config.rowCount.toNat + rows.toNat - 1 =
      config.rowCount.toNat - 1 + rows.toNat by omega, Nat.add_div_right _ hpos]

theorem bankCount_pos (h : config.Schedulable layout) : 0 < config.bankCount := by
  rw [h.bankCount_eq]
  exact Nat.succ_pos _

theorem bankOfRow_eq (h : config.Schedulable layout) (row : Nat) :
    config.bankOfRow row = .ok (config.bankAt row) :=
  bankOfRow_eq_ok (.inl h.rows_pos) row

/-- A scheduled row is in the bank that its number says. -/
theorem bankAt_row (h : config.Schedulable layout) {i : Nat} (hi : i < config.rowCount.toNat) :
    config.bankAt (config.firstRow.toNat + i) = config.rowBank i := by
  have hcount := h.bankCount_eq
  unfold bankAt
  cases hrows : config.rowsPerBank with
  | none => simp only [rowBank, hrows]
  | some rows =>
    simp only [rowBank, hrows] at hcount ⊢
    rw [Nat.add_sub_cancel_left, hcount, Nat.add_sub_cancel]
    exact Nat.min_eq_left (Nat.div_le_div_right (by omega))

theorem bankAt_lt (h : config.Schedulable layout) (row : Nat) :
    config.bankAt row < config.bankCount := by
  have hcount := h.bankCount_eq
  unfold bankAt
  split <;> omega

theorem requestCell_lt (h : config.Schedulable layout) (i : Nat) {k : Nat}
    (hk : k < config.pattern.bytesPerRow) :
    (config.requestCell i k).address < (config.nibbleCell i k .high).address := by
  apply Nat.add_lt_add_left
  exact h.sound.requestColumn_lt_byteColumn hk

theorem nibbleCell_col_lt (h : config.Schedulable layout) (i : Nat) {k : Nat}
    (hk : k < config.pattern.bytesPerRow) (nibble : Nibble) :
    (config.nibbleCell i k nibble).col < gridColumns := by
  have hcol := h.sound.byteColumn_lt hk
  cases nibble <;> simp only [nibbleCell, Pattern.nibbleColumn] <;> omega

theorem requestCell_col_lt (h : config.Schedulable layout) (i : Nat) {k : Nat}
    (hk : k < config.pattern.bytesPerRow) : (config.requestCell i k).col < gridColumns := by
  calc
    config.pattern.requestColumn k < config.pattern.byteColumn k :=
      h.sound.requestColumn_lt_byteColumn hk
    _ < config.pattern.byteColumn k + 1 := Nat.lt_succ_self _
    _ < gridColumns := h.sound.byteColumn_lt hk

/-- A byte has been shown when a later byte is requested; the request may share the slot of the low
nibble. -/
theorem nibbleCell_le_requestCell (h : config.Schedulable layout) {i j k l : Nat}
    (hk : k < config.pattern.bytesPerRow) (hl : l < config.pattern.bytesPerRow)
    (hlt : config.offset i k < config.offset j l) :
    (config.nibbleCell i k .low).address ≤ (config.requestCell j l).address := by
  rcases lt_or_eq_of_offset_le hl (Nat.le_of_lt hlt) with hij | ⟨rfl, hkl⟩
  · apply Nat.le_of_lt
    apply Cell.address_lt_of_row_lt (h.nibbleCell_col_lt i hk .low)
    exact Nat.add_lt_add_left hij _
  · have hne : k ≠ l := by
      rintro rfl
      exact Nat.lt_irrefl _ hlt
    apply Nat.add_le_add_left
    exact h.sound.byteColumn_lt_requestColumn (Nat.lt_of_le_of_ne hkl hne) hl

/-- Requests are made in the order of their offsets. -/
theorem offset_lt_iff_requestCell_lt (h : config.Schedulable layout) {i j k l : Nat}
    (hk : k < config.pattern.bytesPerRow) (hl : l < config.pattern.bytesPerRow) :
    config.offset i k < config.offset j l ↔
      (config.requestCell i k).address < (config.requestCell j l).address := by
  -- the low nibble of the earlier byte lies between the two requests
  have hforward : ∀ {i j k l : Nat},
      k < config.pattern.bytesPerRow → l < config.pattern.bytesPerRow →
      config.offset i k < config.offset j l →
      (config.requestCell i k).address < (config.requestCell j l).address := by
    intro i j k l hk hl hlt
    calc
      (config.requestCell i k).address < (config.nibbleCell i k .high).address :=
        h.requestCell_lt i hk
      _ < (config.nibbleCell i k .low).address := by
        rw [nibbleCell_low_eq]
        exact Nat.lt_succ_self _
      _ ≤ (config.requestCell j l).address := h.nibbleCell_le_requestCell hk hl hlt
  constructor
  · exact hforward hk hl
  · intro hlt
    rcases Nat.lt_trichotomy (config.offset i k) (config.offset j l) with hless | heq | hmore
    · exact hless
    · obtain ⟨rfl, rfl⟩ := offset_inj hk hl heq
      exact absurd hlt (Nat.lt_irrefl _)
    · exact absurd (hforward hl hk hmore) (Nat.lt_asymm hlt)

/-- No slot requests two bytes. -/
theorem requestCell_inj (h : config.Schedulable layout) {i j k l : Nat}
    (hk : k < config.pattern.bytesPerRow) (hl : l < config.pattern.bytesPerRow)
    (heq : (config.requestCell i k).address = (config.requestCell j l).address) :
    i = j ∧ k = l := by
  have hlt := h.offset_lt_iff_requestCell_lt (i := i) (j := j) hk hl
  have hgt := h.offset_lt_iff_requestCell_lt (i := j) (j := i) hl hk
  rw [heq] at hlt hgt
  apply offset_inj hk hl
  omega

end Schedulable

end Config

namespace Config

/-- A small configuration in which everything occurs that can: captions over bytes, over a label
and outside the schedule, labels, and a second bank. -/
def sample : Config where
  rowCount := 2
  rowsPerBank := some 1
  addressLabels := true
  pattern := { byteColumns := [4, 6, 9] }
  captions := [⟨"HI", 9, 5⟩, ⟨"-", 10, 0⟩, ⟨"INFO", 2, 20⟩]

variable {config : Config} {layout : Layout}

/-! ## Accepted configurations -/

theorem checkRows_eq_ok_iff :
    config.checkRows = .ok () ↔
      0 < config.rowCount.toNat ∧ (∀ rows, config.rowsPerBank = some rows → 0 < rows.toNat) ∧
        config.firstRow.toNat + config.rowCount.toNat < UInt16.size := by
  unfold checkRows
  rw [Outcome.guard_refuse_eq_ok, Outcome.guard_refuse_eq_ok,
    Outcome.guard_refuse_eq_ok, Outcome.pure_eq_ok, ← rowsPerBank_ne_zero_iff,
    ← uint16_ne_zero_iff config.rowCount, Nat.not_le]
  simp only [and_true, ne_eq]

theorem check_eq_ok_iff :
    config.check = .ok () ↔
      config.checkRows = .ok () ∧ config.pattern.check config.addressLabels = .ok () ∧
        config.encoding.checkWidths = .ok () ∧
        config.encoding.checkAddress config.lastAddress = .ok () ∧
        config.checkLastOffset = .ok () := by
  unfold check
  simp only [Outcome.check_bind_eq_ok]

theorem lastOffset_lt (h : config.checkLastOffset = .ok ()) : config.lastOffset < UInt32.size := by
  rw [checkLastOffset, Outcome.guard_refuse_eq_ok] at h
  exact Nat.lt_of_not_le h.1

end Config

namespace Screen

def sample : Screen := ⟨.sample, ⟨Config.sample.captions.flatMap Caption.cells⟩⟩

/-- The sample configuration is accepted. -/
theorem ofConfig_sample : ofConfig .sample = .ok sample := rfl

variable {config : Config} {screen : Screen}

theorem ofConfig_eq_ok_iff :
    ofConfig config = .ok screen ↔
      config.check = .ok () ∧ screen.config = config ∧
        Layout.ofCaptions config.captions = .ok screen.layout ∧
        (screen.layout.cells.forM fun literal ↦
          config.encoding.checkAddress literal.cell.address) = .ok () := by
  obtain ⟨own, layout⟩ := screen
  unfold ofConfig
  simp only [Outcome.bind_eq_ok, Outcome.pure_eq_ok, Screen.mk.injEq]
  constructor
  · rintro ⟨⟨⟩, hcheck, checked, hlayout, ⟨⟩, hcells, rfl, rfl⟩
    exact ⟨hcheck, rfl, hlayout, hcells⟩
  · rintro ⟨hcheck, rfl, hlayout, hcells⟩
    exact ⟨(), hcheck, layout, hlayout, (), hcells, rfl, rfl⟩

/-- An accepted configuration can be scheduled. -/
theorem schedulable (h : ofConfig config = .ok screen) : config.Schedulable screen.layout := by
  obtain ⟨hcheck, -, hlayout, -⟩ := ofConfig_eq_ok_iff.mp h
  obtain ⟨hrows, hpattern, -⟩ := Config.check_eq_ok_iff.mp hcheck
  obtain ⟨hcount, hbank, hend⟩ := Config.checkRows_eq_ok_iff.mp hrows
  exact ⟨hcount, hbank, hend, Pattern.check_eq_ok_iff.mp hpattern, hlayout⟩

/-- The offset of every byte of an accepted configuration is a 32-bit number. -/
theorem offset_lt (h : ofConfig config = .ok screen) {i k : Nat} (hi : i < config.rowCount.toNat)
    (hk : k < config.pattern.bytesPerRow) : config.offset i k < UInt32.size := by
  obtain ⟨hcheck, -⟩ := ofConfig_eq_ok_iff.mp h
  obtain ⟨-, -, -, -, hlast⟩ := Config.check_eq_ok_iff.mp hcheck
  exact Nat.lt_of_le_of_lt (Config.offset_le_lastOffset hi hk) (Config.lastOffset_lt hlast)

end Screen

end InfoScreen
