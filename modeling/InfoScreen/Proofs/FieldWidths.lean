import InfoScreen.Proofs.CompileFaults
import InfoScreen.Proofs.Digits
import InfoScreen.Proofs.Offsets

/-!
# Entries fit their fields

The widths of the fields are checked once, against the last address and the last offset that a
schedule can come to and against the cells of the captions.  That is enough for every entry: a
merged action is either in a scheduled row or on a caption's cell, and what goes into the secondary
field is the offset of some scheduled byte, be it requested or shown as a label.  An offset that
fits its field is printed with exactly as many hexadecimal digits as the field needs.
-/

namespace InfoScreen

theorem checkWidth_eq_ok_iff {bits : UInt8} :
    checkWidth bits = .ok () ↔ 0 < bits.toNat ∧ bits.toNat ≤ 32 := by
  rw [checkWidth, Outcome.guard_refuse_eq_ok, Outcome.pure_eq_ok, and_iff_left rfl]
  omega

namespace Encoding

variable {encoding : Encoding}

theorem checkWidths_eq_ok_iff :
    encoding.checkWidths = .ok () ↔
      (0 < encoding.addressBits.toNat ∧ encoding.addressBits.toNat ≤ 32) ∧
        0 < encoding.diffBits.toNat ∧ encoding.diffBits.toNat ≤ 32 := by
  rw [checkWidths, Outcome.check_bind_eq_ok, checkWidth_eq_ok_iff, checkWidth_eq_ok_iff]

theorem fits_iff {value : Nat} {bits : UInt8} (hbits : bits.toNat ≤ 32) :
    fits value bits = true ↔ value < 2 ^ bits.toNat := by
  have hwide : ¬64 ≤ bits.toNat := by omega
  simp [fits, hwide, Nat.one_shiftLeft]

theorem checkAddress_eq_ok_iff {address : Nat} (hbits : encoding.addressBits.toNat ≤ 32) :
    encoding.checkAddress address = .ok () ↔ address < 2 ^ encoding.addressBits.toNat := by
  rw [← fits_iff hbits, checkAddress]
  cases fits address encoding.addressBits <;> simp

theorem checkOffset_eq_ok_iff {offset : UInt32} (hbits : encoding.diffBits.toNat ≤ 32) :
    encoding.checkOffset offset = .ok () ↔ offset.toNat < 2 ^ encoding.diffBits.toNat := by
  rw [← fits_iff hbits, checkOffset]
  cases fits offset.toNat encoding.diffBits <;> simp

/-- The digits that a field needs are enough for every value that it holds. -/
theorem two_pow_diffBits_le (encoding : Encoding) :
    2 ^ encoding.diffBits.toNat ≤ 16 ^ encoding.diffDigits := by
  calc
    2 ^ encoding.diffBits.toNat ≤ 2 ^ (4 * encoding.diffDigits) := by
      apply Nat.pow_le_pow_right (by decide)
      rw [diffDigits]
      omega
    _ = 16 ^ encoding.diffDigits := Nat.pow_mul 2 4 encoding.diffDigits

end Encoding

structure Action.OffsetsBelow (bound : Nat) (action : Action) : Prop where
  read : ∀ offset, action.read = some offset → offset.toNat < bound
  label : ∀ nibble offset, action.paint = some (.cursorAddress nibble offset) →
    offset.toNat < bound

/-- The line of an entry ends with the offset field, which has the given digits behind the width of
the field, and the two flags. -/
def Table.Verilog.WritesOffset (encoding : Encoding) (entry : Entry) (digits : List Char) : Prop :=
  ∃ before, line encoding entry =
    before ++ ", adb_diff: " ++ Text.decimal encoding.diffBits.toNat ++ "'h" ++
      String.ofList digits ++ ", vram_write: " ++ bit entry.displayWrite ++
      ", mem_read: " ++ bit entry.memoryRead ++ "\x7d;\n"

namespace Entry

variable {encoding : Encoding} {entry : Entry} {action : Action} {index bound : Nat}

/-- An entry keeps to the widths of its fields, and its offset is printed with the digits that the
field needs, no more and no fewer. -/
structure Fits (encoding : Encoding) (entry : Entry) : Prop where
  address_lt : entry.address < 2 ^ encoding.addressBits.toNat
  secondary_lt : entry.secondary.toNat < 2 ^ encoding.diffBits.toNat
  printed : ∃ digits, Table.Verilog.WritesOffset encoding entry digits ∧
    digits.length = encoding.diffDigits ∧ Text.hexNumber? digits = some entry.secondary.toNat

theorem address_lt_of_encode (hencode : encode index action = .ok entry)
    (haddress : action.cell.address < bound) : entry.address < bound := by
  rw [(encode_eq_ok_iff.mp hencode).2]
  dsimp only
  split
  · exact haddress
  · exact Nat.lt_of_le_of_lt (Nat.zero_le _) haddress

/-- The secondary field holds the requested offset, or else the one that is shown, or else zero. -/
theorem secondary_lt_of_encode (hencode : encode index action = .ok entry)
    (hoffsets : action.OffsetsBelow bound) (hpos : 0 < bound) : entry.secondary.toNat < bound := by
  rw [(encode_eq_ok_iff.mp hencode).2]
  dsimp only
  cases hread : action.read with
  | some offset => exact hoffsets.read offset hread
  | none =>
    cases hpaint : action.paint with
    | none => exact hpos
    | some paint =>
      cases paint with
      | literal byte => exact hpos
      | fetched nibble readSlot => cases nibble <;> exact hpos
      | cursorAddress nibble offset =>
        have hlabel := hoffsets.label nibble offset hpaint
        cases nibble <;> exact hlabel

/-- An entry whose fields hold their values is printed with the digits of its offset field. -/
theorem fits_of_lt (hpos : 0 < encoding.diffBits.toNat)
    (haddress : entry.address < 2 ^ encoding.addressBits.toNat)
    (hsecondary : entry.secondary.toNat < 2 ^ encoding.diffBits.toNat) : entry.Fits encoding where
  address_lt := haddress
  secondary_lt := hsecondary
  printed := by
    have hdigits : 0 < encoding.diffDigits := by
      rw [Encoding.diffDigits]
      omega
    have hroom : entry.secondary.toNat < 16 ^ encoding.diffDigits :=
      Nat.lt_of_lt_of_le hsecondary encoding.two_pow_diffBits_le
    refine ⟨Text.padDigits encoding.diffDigits (Text.upperHexDigits entry.secondary.toNat),
      ⟨_, rfl⟩, ?_, ?_⟩
    · exact Text.length_padDigits_upperHexDigits hdigits hroom
    · rw [Text.hexNumber?_padDigits, Text.hexNumber?_upperHexDigits]

end Entry

/-! ## The bounds that are checked in advance -/

/-- The last address, the cells of the captions and the last offset fit their fields. -/
structure Config.Bounded (config : Config) (layout : Layout) : Prop where
  digits_pos : 0 < config.encoding.diffBits.toNat
  lastAddress_lt : config.lastAddress < 2 ^ config.encoding.addressBits.toNat
  literal_lt : ∀ literal ∈ layout.cells,
    literal.cell.address < 2 ^ config.encoding.addressBits.toNat
  lastOffset_lt : config.lastOffset < 2 ^ config.encoding.diffBits.toNat
  lastOffset_word : config.lastOffset < UInt32.size

namespace Config.Bounded

variable {config : Config} {layout : Layout}

/-- A cell of a scheduled row has at most the last address. -/
theorem scheduled_lt (h : config.Bounded layout) {i col : Nat} (hi : i < config.rowCount.toNat)
    (hcol : col < gridColumns) :
    (⟨config.firstRow.toNat + i, col⟩ : Cell).address < 2 ^ config.encoding.addressBits.toNat := by
  apply Nat.lt_of_le_of_lt _ h.lastAddress_lt
  simp only [Cell.address, lastAddress, gridColumns] at hcol ⊢
  omega

/-- The offset of a scheduled byte is at most the last offset. -/
theorem offset_lt (h : config.Bounded layout) {i k : Nat} (hi : i < config.rowCount.toNat)
    (hk : k < config.pattern.bytesPerRow) :
    (UInt32.ofNat (config.offset i k)).toNat < 2 ^ config.encoding.diffBits.toNat := by
  have hle := offset_le_lastOffset hi hk
  calc
    (UInt32.ofNat (config.offset i k)).toNat = config.offset i k :=
      UInt32.toNat_ofNat_of_lt' (Nat.lt_of_le_of_lt hle h.lastOffset_word)
    _ ≤ config.lastOffset := hle
    _ < 2 ^ config.encoding.diffBits.toNat := h.lastOffset_lt

theorem address_lt_merged (h : config.Bounded layout) (hschedulable : config.Schedulable layout) :
    ∀ action ∈ config.mergedActions layout,
      action.cell.address < 2 ^ config.encoding.addressBits.toNat := by
  apply SlotMap.forall_mem_merged
    (P := fun action ↦ action.cell.address < 2 ^ config.encoding.addressBits.toNat)
    (Layout.ofCaptions_distinct hschedulable.layout_eq) (Schedulable.scheduled_distinct _)
  · intro action paint haddress
    exact haddress
  · intro action haction
    obtain ⟨i, hi, col, hcol, rfl⟩ := mem_scheduledActions_iff.mp haction
    exact h.scheduled_lt hi hcol
  · exact h.literal_lt

theorem offsetsBelow_merged (h : config.Bounded layout) (hschedulable : config.Schedulable layout) :
    ∀ action ∈ config.mergedActions layout,
      action.OffsetsBelow (2 ^ config.encoding.diffBits.toNat) := by
  refine fun action haction ↦ ⟨fun offset hread ↦ ?_, fun nibble offset hpaint ↦ ?_⟩
  · obtain ⟨i, k, hvisible, -, rfl⟩ :=
      (hschedulable.traffic_merged.read _ offset).mp ⟨action, haction, rfl, hread⟩
    exact h.offset_lt hvisible.row_lt hvisible.byte_lt
  · rcases (hschedulable.paint_mergedActions_iff _ _).mp ⟨action, haction, rfl, hpaint⟩ with
      ⟨literal, -, -, hliteral⟩ | ⟨i, hi, col, -, hshows⟩
    · cases hliteral
    · cases hshows with
      | label => exact h.offset_lt hi hschedulable.sound.toOrdered.bytes_pos

end Config.Bounded

namespace Screen

variable {config : Config} {screen : Screen} {tables : Tables}

theorem bounded (h : ofConfig config = .ok screen) : config.Bounded screen.layout := by
  obtain ⟨hcheck, -, -, hcells⟩ := ofConfig_eq_ok_iff.mp h
  obtain ⟨-, -, hwidths, haddress, hoffset⟩ := Config.check_eq_ok_iff.mp hcheck
  obtain ⟨⟨-, haddressBits⟩, hpos, hdiffBits⟩ := Encoding.checkWidths_eq_ok_iff.mp hwidths
  have hword := Config.lastOffset_lt hoffset
  rw [Config.checkLastOffset, Outcome.guard_refuse_eq_ok, Encoding.checkOffset_eq_ok_iff hdiffBits,
    UInt32.toNat_ofNat_of_lt' hword] at hoffset
  rw [Outcome.forM_eq_ok_iff] at hcells
  refine ⟨hpos, ?_, fun literal hliteral ↦ ?_, hoffset.2, hword⟩
  · exact (Encoding.checkAddress_eq_ok_iff haddressBits).mp haddress
  · exact (Encoding.checkAddress_eq_ok_iff haddressBits).mp (hcells literal hliteral)

/-- Tables keep the encoding of their configuration. -/
theorem encoding_of_compile (h : ofConfig config = .ok screen)
    (hcompile : screen.compile = .ok tables) : tables.encoding = config.encoding := by
  rw [compile_eq h] at hcompile
  obtain ⟨banks, -, hcompile⟩ := Outcome.bind_eq_ok.mp hcompile
  obtain ⟨-, hcompile⟩ := Outcome.check_bind_eq_ok.mp hcompile
  rw [← Outcome.pure_eq_ok.mp hcompile]

/-- The last offset of the second row, and with it the offset field, is full. -/
def brimful : Screen :=
  let config : Config := { Config.sample with startAddress := 250 }
  ⟨config, ⟨config.captions.flatMap Caption.cells⟩⟩

/-- Whatever is accepted is scheduled without losing a part of an offset in any slot, and if it
compiles, every entry of every bank fits its fields and prints its offset with as many digits as the
field needs. -/
theorem compile_entries_fit (h : ofConfig config = .ok screen) :
    (∃ schedule, screen.schedule = .ok schedule ∧
      schedule.actions.length = gridColumns * config.rowCount.toNat ∧
      ∀ i < config.rowCount.toNat, ∀ col < gridColumns, ∃ stop action,
        Schedule.stopAt config screen.layout i col = .ok stop ∧
        schedule.actions[gridColumns * i + col]? = some action ∧
        stop.Exact config.pattern.bytesPerRow col action) ∧
    ∀ tables, screen.compile = .ok tables → tables.encoding = config.encoding ∧
      ∀ bank ∈ tables.banks, ∀ entry ∈ bank.entries, entry.Fits tables.encoding := by
  have hschedulable := schedulable h
  have hbounded := bounded h
  constructor
  · refine ⟨_, schedule_eq h, ?_, fun i hi col hcol ↦ ?_⟩
    · rw [Config.scheduledActions, List.length_map, List.length_range]
    · obtain ⟨stop, hstop, hexact⟩ := exact_of_stopAt h hi hcol
      exact ⟨stop, _, hstop, Config.getElem?_scheduledActions hi hcol, hexact⟩
  · intro tables hcompile
    have hencoding := encoding_of_compile h hcompile
    refine ⟨hencoding, fun bank hbank entry hentry ↦ ?_⟩
    obtain ⟨-, hentries⟩ := Bank.encodes_of_split (compile_eq_ok h hcompile).1 bank hbank
    obtain ⟨action, haction, index, hencode⟩ :=
      Bank.exists_action_of_mem hentries (Array.mem_toList_iff.mpr hentry)
    have hmem : action ∈ config.mergedActions screen.layout := (List.mem_filter.mp haction).1
    rw [hencoding]
    apply Entry.fits_of_lt hbounded.digits_pos
    · exact Entry.address_lt_of_encode hencode (hbounded.address_lt_merged hschedulable action hmem)
    · exact Entry.secondary_lt_of_encode hencode
        (hbounded.offsetsBelow_merged hschedulable action hmem) (Nat.two_pow_pos _)

theorem compile_entries_fit_brimful :
    ofConfig brimful.config = .ok brimful ∧
      (∃ schedule, brimful.schedule = .ok schedule ∧ schedule.actions.length = 120) ∧
      ∃ tables, brimful.compile = .ok tables ∧
        (∃ bank ∈ tables.banks, ∃ entry ∈ bank.entries, entry.secondary = 255) ∧
        ∀ bank ∈ tables.banks, ∀ entry ∈ bank.entries, entry.Fits tables.encoding := by
  have hconfig : ofConfig brimful.config = .ok brimful := rfl
  have hcompiled : (brimful.compile.map fun tables ↦ decide (∃ bank ∈ tables.banks,
      ∃ entry ∈ bank.entries.toList, entry.secondary = 255)) = .ok true := by decide +kernel
  obtain ⟨tables, hcompile, hfull⟩ := Outcome.map_eq_ok.mp hcompiled
  obtain ⟨bank, hbank, entry, hentry, hsecondary⟩ := of_decide_eq_true hfull
  obtain ⟨⟨schedule, hschedule, hlength, -⟩, hfits⟩ := compile_entries_fit hconfig
  refine ⟨hconfig, ⟨schedule, hschedule, hlength⟩, tables, hcompile, ?_, (hfits tables hcompile).2⟩
  exact ⟨bank, hbank, entry, Array.mem_toList_iff.mp hentry, hsecondary⟩

end Screen

end InfoScreen
