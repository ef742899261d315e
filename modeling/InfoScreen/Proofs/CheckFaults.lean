import InfoScreen.Proofs.Schedulable

/-!
# Where the checks of a configuration fault

The checks of a configuration compute with its numbers before they have bounded them.  Only two of
their sums can leave the machine word: the column after the last byte, and the column two after a
byte that is compared with the next one.  So a configuration is either accepted or refused for a
reason, unless a byte stands in one of the two largest columns and is looked at before a reason for
refusal is found.
-/

namespace InfoScreen

namespace Pattern

/-- A byte column is so large that the check of the byte columns leaves the sixteen-bit numbers:
the last one, or one that follows columns that are spaced as they should be. -/
def Overflows (pattern : Pattern) : Prop :=
  0 < pattern.bytesPerRow ∧ pattern.readColumn.toNat < pattern.byteColumn 0 ∧
    (UInt16.size ≤ pattern.byteColumn (pattern.bytesPerRow - 1) + 1 ∨
      pattern.byteColumn (pattern.bytesPerRow - 1) + 1 < gridColumns ∧
        ∃ k, k + 1 < pattern.bytesPerRow ∧ UInt16.size ≤ pattern.byteColumn k + 2 ∧
          ∀ j < k, pattern.byteColumn j + 2 ≤ pattern.byteColumn (j + 1))

variable {pattern : Pattern} {fault : Fault}

/-- The spacing check faults at the first column that has no room for a next one, if the columns
before it are spaced. -/
theorem checkSpacing_eq_halt_iff (columns : List UInt16) :
    checkSpacing columns = halt fault ↔
      fault = .sumOverflow ∧ ∃ k, k + 1 < columns.length ∧
        UInt16.size ≤ (columns.getD k 0).toNat + 2 ∧
        ∀ j < k, (columns.getD j 0).toNat + 2 ≤ (columns.getD (j + 1) 0).toNat := by
  fun_induction checkSpacing columns with
  | case1 col next rest hoverflow =>
    rw [Outcome.halt_inj]
    refine (and_iff_left ⟨0, ?_, ?_, ?_⟩).symm
    · simp
    · simpa using hoverflow
    · simp
  | case2 col next rest hword hcrowded =>
    constructor
    · intro h
      exact absurd h (Outcome.refuse_ne_halt _ _)
    · rintro ⟨-, k, -, hoverflow, hspaced⟩
      cases k with
      | zero => exact absurd (by simpa using hoverflow) hword
      | succ k =>
        have hfirst := hspaced 0 (Nat.succ_pos k)
        exact absurd (by simpa using hfirst) (Nat.not_le_of_lt hcrowded)
  | case3 col next rest hword hroom ih =>
    rw [ih]
    refine and_congr_right fun _ ↦ ⟨?_, ?_⟩
    · rintro ⟨k, hk, hoverflow, hspaced⟩
      refine ⟨k + 1, by simpa using hk, by simpa using hoverflow, fun j hj ↦ ?_⟩
      cases j with
      | zero => simpa using hroom
      | succ j => simpa using hspaced j (Nat.lt_of_succ_lt_succ hj)
    · rintro ⟨k, hk, hoverflow, hspaced⟩
      cases k with
      | zero => exact absurd (by simpa using hoverflow) hword
      | succ k =>
        refine ⟨k, by simpa using hk, by simpa using hoverflow, fun j hj ↦ ?_⟩
        simpa using hspaced (j + 1) (Nat.succ_lt_succ hj)
  | case4 columns hshort =>
    constructor
    · intro h
      exact absurd h (Outcome.pure_ne_halt _ _)
    · rintro ⟨-, k, hk, -⟩
      rcases columns with _ | ⟨col, _ | ⟨next, rest⟩⟩
      · simp at hk
      · simp at hk
      · exact absurd rfl (hshort col next rest)

theorem checkBytes_eq_halt_iff :
    pattern.checkBytes = halt fault ↔ fault = .sumOverflow ∧ pattern.Overflows := by
  have hspacing : checkSpacing pattern.byteColumns = halt fault ↔
      fault = .sumOverflow ∧ ∃ k, k + 1 < pattern.bytesPerRow ∧
        UInt16.size ≤ pattern.byteColumn k + 2 ∧
        ∀ j < k, pattern.byteColumn j + 2 ≤ pattern.byteColumn (j + 1) :=
    checkSpacing_eq_halt_iff pattern.byteColumns
  rcases Nat.eq_zero_or_pos pattern.bytesPerRow with hempty | hpos
  · rw [checkBytes_of_empty hempty]
    refine ⟨fun h ↦ absurd h (Outcome.refuse_ne_halt _ _), fun h ↦ ?_⟩
    exact absurd hempty (Nat.pos_iff_ne_zero.mp h.2.1)
  · rw [checkBytes_of_pos hpos, Outcome.guard_refuse_eq_halt, Outcome.guard_halt_eq_halt,
      Outcome.guard_refuse_eq_halt, hspacing]
    constructor
    · rintro ⟨hread, ⟨hlast, hfault⟩ | ⟨-, hgrid, hfault, hcrowded⟩⟩
      · exact ⟨hfault, hpos, Nat.lt_of_not_le hread, .inl hlast⟩
      · exact ⟨hfault, hpos, Nat.lt_of_not_le hread, .inr ⟨Nat.lt_of_not_le hgrid, hcrowded⟩⟩
    · rintro ⟨hfault, -, hread, hlast | ⟨hgrid, hcrowded⟩⟩
      · exact ⟨Nat.not_le_of_lt hread, .inl ⟨hlast, hfault⟩⟩
      · refine ⟨Nat.not_le_of_lt hread, .inr ⟨?_, Nat.not_le_of_lt hgrid, hfault, hcrowded⟩⟩
        simp only [gridColumns, UInt16.size] at hgrid ⊢
        omega

theorem checkLabel_ne_halt (col : UInt16) : pattern.checkLabel col ≠ halt fault := by
  rw [checkLabel, ne_eq, Outcome.guard_refuse_eq_halt, Outcome.guard_refuse_eq_halt]
  rintro ⟨-, -, h⟩
  exact Outcome.pure_ne_halt _ _ h

theorem checkLabels_ne_halt : pattern.checkLabels ≠ halt fault := by
  rw [checkLabels, ne_eq, Outcome.guard_refuse_eq_halt, Outcome.check_bind_eq_halt]
  rintro ⟨-, hhigh | ⟨-, hlow⟩⟩
  · exact checkLabel_ne_halt _ hhigh
  · exact checkLabel_ne_halt _ hlow

theorem check_eq_halt_iff {withLabels : Bool} :
    pattern.check withLabels = halt fault ↔ fault = .sumOverflow ∧ pattern.Overflows := by
  rw [check, Outcome.check_bind_eq_halt, checkBytes_eq_halt_iff]
  refine or_iff_left ?_
  rintro ⟨-, hlabels⟩
  cases withLabels with
  | false => exact Outcome.pure_ne_halt _ _ hlabels
  | true => exact checkLabels_ne_halt hlabels

end Pattern

variable {fault : Fault}

theorem checkWidth_ne_halt (bits : UInt8) : checkWidth bits ≠ halt fault := by
  rw [checkWidth]
  split
  · exact Outcome.refuse_ne_halt _ _
  · exact Outcome.pure_ne_halt _ _

namespace Encoding

variable {encoding : Encoding}

theorem checkWidths_ne_halt : encoding.checkWidths ≠ halt fault := by
  rw [checkWidths, ne_eq, Outcome.check_bind_eq_halt]
  rintro (haddress | ⟨-, hdiff⟩)
  · exact checkWidth_ne_halt _ haddress
  · exact checkWidth_ne_halt _ hdiff

theorem checkAddress_ne_halt (address : Nat) : encoding.checkAddress address ≠ halt fault := by
  rw [checkAddress]
  split
  · exact Outcome.pure_ne_halt _ _
  · exact Outcome.refuse_ne_halt _ _

theorem checkOffset_ne_halt (offset : UInt32) : encoding.checkOffset offset ≠ halt fault := by
  rw [checkOffset]
  split
  · exact Outcome.pure_ne_halt _ _
  · exact Outcome.refuse_ne_halt _ _

end Encoding

namespace Layout

theorem add_ne_halt (layout : Layout) (caption : Caption) : layout.add caption ≠ halt fault := by
  unfold add
  split
  · exact Outcome.refuse_ne_halt _ _
  · split
    · exact Outcome.refuse_ne_halt _ _
    · dsimp only
      split
      · exact Outcome.refuse_ne_halt _ _
      · exact Outcome.pure_ne_halt _ _

theorem ofCaptions_ne_halt (captions : List Caption) : ofCaptions captions ≠ halt fault :=
  Outcome.foldlM_ne_halt add_ne_halt captions {}

end Layout

namespace Config

/-- The check of the rows is passed, and the check of the byte columns leaves the sixteen-bit
numbers. -/
structure Overflows (config : Config) : Prop where
  rows_pos : 0 < config.rowCount.toNat
  bank_pos : ∀ rows, config.rowsPerBank = some rows → 0 < rows.toNat
  rows_lt : config.firstRow.toNat + config.rowCount.toNat < UInt16.size
  pattern : config.pattern.Overflows

/-- All other sums, products and differences that the checks form stay in their machine words. -/
structure ChecksInWord (config : Config) : Prop where
  /-- The column of a low nibble, sixteen bits, formed for a label once the bytes are checked. -/
  nibble : config.pattern.checkBytes = .ok () →
    ∀ col ∈ config.pattern.byteColumns, col.toNat + 1 < UInt16.size
  /-- The address of the last cell, which is one less than a product. -/
  address : config.checkRows = .ok () →
    0 < (config.firstRow.toNat + config.rowCount.toNat) * gridColumns ∧
      (config.firstRow.toNat + config.rowCount.toNat) * gridColumns < UInt64.size
  /-- The offset after the last byte. -/
  offset : config.pattern.check config.addressLabels = .ok () →
    config.startAddress.toNat + config.pattern.bytesPerRow * config.rowCount.toNat < UInt64.size
  /-- The column and the address of a caption's character, once the caption is on the grid. -/
  character : ∀ caption ∈ config.captions,
    caption.col.toNat + caption.text.length ≤ gridColumns → ∀ literal ∈ caption.cells,
      literal.cell.col < UInt16.size ∧ literal.cell.address < UInt64.size

variable {config : Config}

theorem checkRows_ne_halt : config.checkRows ≠ halt fault := by
  rw [checkRows, ne_eq, Outcome.guard_refuse_eq_halt, Outcome.guard_refuse_eq_halt,
    Outcome.guard_refuse_eq_halt]
  rintro ⟨-, -, -, h⟩
  exact Outcome.pure_ne_halt _ _ h

theorem checkLastOffset_ne_halt : config.checkLastOffset ≠ halt fault := by
  rw [checkLastOffset, ne_eq, Outcome.guard_refuse_eq_halt]
  rintro ⟨-, h⟩
  exact Encoding.checkOffset_ne_halt _ h

theorem check_eq_halt_iff :
    config.check = halt fault ↔ fault = .sumOverflow ∧ config.Overflows := by
  have hrest : ¬(do
      config.encoding.checkWidths
      config.encoding.checkAddress config.lastAddress
      config.checkLastOffset : Outcome Unit) = halt fault := by
    simp only [Outcome.check_bind_eq_halt]
    rintro (hwidths | ⟨-, haddress | ⟨-, hoffset⟩⟩)
    · exact Encoding.checkWidths_ne_halt hwidths
    · exact Encoding.checkAddress_ne_halt _ haddress
    · exact checkLastOffset_ne_halt hoffset
  rw [check, Outcome.check_bind_eq_halt, Outcome.check_bind_eq_halt, Pattern.check_eq_halt_iff,
    checkRows_eq_ok_iff]
  constructor
  · rintro (hrows | ⟨⟨hrows, hbank, hend⟩, ⟨hfault, hpattern⟩ | ⟨-, h⟩⟩)
    · exact absurd hrows checkRows_ne_halt
    · exact ⟨hfault, hrows, hbank, hend, hpattern⟩
    · exact absurd h hrest
  · rintro ⟨hfault, h⟩
    exact .inr ⟨⟨h.rows_pos, h.bank_pos, h.rows_lt⟩, .inl ⟨hfault, h.pattern⟩⟩

theorem checksInWord (config : Config) : config.ChecksInWord where
  nibble := by
    intro hcheck col hcol
    have horder := Pattern.checkBytes_eq_ok_iff.mp hcheck
    obtain ⟨k, hk, rfl⟩ := List.getElem_of_mem hcol
    rw [← Pattern.byteColumn_eq_getElem hk]
    calc
      config.pattern.byteColumn k + 1 < gridColumns := horder.byteColumn_lt hk
      _ < UInt16.size := by decide
  address := by
    intro hcheck
    obtain ⟨hrows, -, hend⟩ := checkRows_eq_ok_iff.mp hcheck
    simp only [gridColumns, UInt16.size, UInt64.size] at hend ⊢
    omega
  offset := by
    intro hcheck
    have hbytes := (Pattern.check_eq_ok_iff.mp hcheck).bytesPerRow_le
    have hproduct : config.pattern.bytesPerRow * config.rowCount.toNat ≤
        gridColumns * UInt16.size :=
      Nat.mul_le_mul hbytes (Nat.le_of_lt config.rowCount.toNat_lt_size)
    have hstart := config.startAddress.toNat_lt_size
    simp only [gridColumns, UInt16.size, UInt32.size, UInt64.size] at hproduct hstart ⊢
    omega
  character := by
    intro caption _ hroom literal hliteral
    obtain ⟨i, c, hc, rfl⟩ := (caption.mem_cells_iff literal).mp hliteral
    have hi := (List.getElem?_eq_some_iff.mp hc).1
    have hrow := caption.row.toNat_lt_size
    rw [String.length_toList] at hi
    simp only [Cell.address, gridColumns, UInt16.size, UInt64.size] at hroom hrow ⊢
    omega

end Config

namespace Screen

/-- A configuration is accepted, or refused for a reason, or its check of the byte columns leaves
the sixteen-bit numbers.  There is no other fault, and no other number leaves its word. -/
theorem ofConfig_eq_halt_iff (config : Config) :
    (∀ fault, ofConfig config = halt fault ↔ fault = .sumOverflow ∧ config.Overflows) ∧
      config.ChecksInWord := by
  refine ⟨fun fault ↦ ?_, config.checksInWord⟩
  rw [ofConfig, Outcome.check_bind_eq_halt, Config.check_eq_halt_iff]
  refine or_iff_left ?_
  rintro ⟨-, h⟩
  rcases Outcome.bind_eq_halt.mp h with hlayout | ⟨layout, -, h⟩
  · exact Layout.ofCaptions_ne_halt _ hlayout
  · rcases Outcome.check_bind_eq_halt.mp h with hcells | ⟨-, h⟩
    · exact Outcome.forM_ne_halt (fun _ _ ↦ Encoding.checkAddress_ne_halt _) hcells
    · exact Outcome.pure_ne_halt _ _ h

/-- A byte in the largest column is not refused for running off the row. -/
theorem ofConfig_largest_column :
    ofConfig { pattern := { byteColumns := [65535] } } = halt .sumOverflow := rfl

end Screen

end InfoScreen
