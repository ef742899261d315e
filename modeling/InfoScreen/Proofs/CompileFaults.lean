import Mathlib.Data.List.Perm.Subperm
import InfoScreen.Proofs.Table
import InfoScreen.Proofs.Traffic

/-!
# Where compiling faults

An accepted configuration is scheduled, and its captions are merged in, without a failure.  Every
merged action names a bank that exists, and none needs the secondary field for two offsets.  What
is left is the numbering of the entries: bank 0 is numbered from an index that no check looks at,
so the index of an entry, or the number after it, may leave its machine word.  That is the only
fault there is.
-/

namespace InfoScreen

/-! ## Numbering the entries of the banks -/

/-- The action needs the secondary field for one offset at most. -/
def Action.Encodable (action : Action) : Prop :=
  ¬(action.read.isSome ∧ (Paint.fields action.paint).2.2.isSome)

theorem Action.Encodable.encode_eq_ok {action : Action} (h : action.Encodable) (index : Nat) :
    ∃ entry, Entry.encode index action = .ok entry :=
  ⟨_, Entry.encode_eq_ok_iff.mpr ⟨h, rfl⟩⟩

namespace Bank

variable {firstIndex bankCount : Nat} {banks : Array Bank} {own : Bank} {action : Action}
  {actions : List Action}

/-- The indices of all entries that the actions add to their banks are 64-bit numbers. -/
def Fit (firstIndex : Nat) (banks : Array Bank) (actions : List Action) : Prop :=
  ∀ number bank, banks[number]? = some bank →
    bank.nextIndex firstIndex + (actions.filter (·.bank = number)).length ≤ UInt64.size

/-- Adding an entry leaves as much room as its action asked for. -/
theorem fit_push_iff (entry : Entry) :
    Fit firstIndex (banks.modify action.bank fun bank ↦ bank.push entry) actions ↔
      Fit firstIndex banks (action :: actions) := by
  have hnext : ∀ number bank, banks[number]? = some bank → ∃ pushed,
      (banks.modify action.bank fun bank ↦ bank.push entry)[number]? = some pushed ∧
        pushed.nextIndex firstIndex + (actions.filter (·.bank = number)).length =
          bank.nextIndex firstIndex + ((action :: actions).filter (·.bank = number)).length := by
    intro number bank hbank
    by_cases hnumber : action.bank = number
    · refine ⟨bank.push entry, ?_, ?_⟩
      · rw [Array.getElem?_modify, if_pos hnumber, hbank, Option.map_some]
      · rw [List.filter_cons_of_pos (by simpa using hnumber), List.length_cons, nextIndex_push]
        omega
    · refine ⟨bank, ?_, ?_⟩
      · rw [Array.getElem?_modify, if_neg hnumber, hbank]
      · rw [List.filter_cons_of_neg (by simpa using hnumber)]
  constructor
  · intro hfit number bank hbank
    obtain ⟨pushed, hpushed, hroom⟩ := hnext number bank hbank
    exact hroom ▸ hfit number pushed hpushed
  · intro hfit number pushed hpushed
    have hnumber : number < banks.size := by
      have hlt := (Array.getElem?_eq_some_iff.mp hpushed).1
      rwa [Array.size_modify] at hlt
    have hbank : banks[number]? = some banks[number] := Array.getElem?_eq_getElem hnumber
    obtain ⟨other, hother, hroom⟩ := hnext number banks[number] hbank
    obtain rfl := Option.some.inj (hpushed.symm.trans hother)
    rw [hroom]
    exact hfit number banks[number] hbank

/-- One action fits if its own index does. -/
theorem fit_singleton (hstart : Fit firstIndex banks []) (hown : banks[action.bank]? = some own)
    (hindex : own.nextIndex firstIndex < UInt64.size) : Fit firstIndex banks [action] := by
  intro number bank hbank
  by_cases hnumber : action.bank = number
  · subst hnumber
    obtain rfl := Option.some.inj (hown.symm.trans hbank)
    calc
      own.nextIndex firstIndex + ([action].filter (·.bank = action.bank)).length ≤
          own.nextIndex firstIndex + 1 :=
        Nat.add_le_add_left (List.length_filter_le _ [action]) _
      _ ≤ UInt64.size := hindex
  · rw [List.filter_cons_of_neg (by simpa using hnumber)]
    exact hstart number bank hbank

/-- Actions of banks that exist are split without a fault if all indices fit, and otherwise the
first index that does not is the fault. -/
theorem foldlM_route_cases (hbanks : ∀ action ∈ actions, action.bank < banks.size)
    (hencodable : ∀ action ∈ actions, action.Encodable) (hstart : Fit firstIndex banks []) :
    Fit firstIndex banks actions ∧ (∃ last, actions.foldlM (route firstIndex) banks = .ok last) ∨
      ¬Fit firstIndex banks actions ∧
        actions.foldlM (route firstIndex) banks = halt .sumOverflow := by
  induction actions generalizing banks with
  | nil => exact .inl ⟨hstart, banks, rfl⟩
  | cons action rest ih =>
    obtain ⟨hbank, hbanks⟩ := List.forall_mem_cons.mp hbanks
    obtain ⟨hfirst, hencodable⟩ := List.forall_mem_cons.mp hencodable
    have hown : banks[action.bank]? = some banks[action.bank] := Array.getElem?_eq_getElem hbank
    rw [List.foldlM_cons, route_eq hown]
    by_cases hindex : UInt64.size ≤ banks[action.bank].nextIndex firstIndex
    · refine .inr ⟨fun hfit ↦ ?_, ?_⟩
      · have hroom := hfit action.bank _ hown
        rw [List.filter_cons_of_pos (by simp), List.length_cons] at hroom
        omega
      · rw [nextEntry, if_pos hindex]
        rfl
    · obtain ⟨entry, hentry⟩ := hfirst.encode_eq_ok (banks[action.bank].nextIndex firstIndex)
      rw [nextEntry, if_neg hindex, hentry, Outcome.ok_bind, ← fit_push_iff entry]
      apply ih _ hencodable
      · apply (fit_push_iff entry).mpr
        exact fit_singleton hstart hown (Nat.lt_of_not_le hindex)
      · simpa only [Array.size_modify] using hbanks

def SplitFits (firstIndex bankCount : Nat) (actions : List Action) : Prop :=
  ∀ number < bankCount, (if number = 0 then firstIndex else 0) +
    (actions.filter (·.bank = number)).length ≤ UInt64.size

theorem fit_empty_iff :
    Fit firstIndex ((Array.range bankCount).map fun number ↦ { number }) actions ↔
      SplitFits firstIndex bankCount actions := by
  constructor
  · intro hfit number hnumber
    exact hfit number ⟨number, #[]⟩ (by simp [hnumber])
  · intro hfits number bank hbank
    obtain ⟨hnumber, rfl⟩ : number < bankCount ∧ ⟨number, #[]⟩ = bank := by
      simpa [Array.getElem?_eq_some_iff] using hbank
    exact hfits number hnumber

theorem split_cases (hbanks : ∀ action ∈ actions, action.bank < bankCount)
    (hencodable : ∀ action ∈ actions, action.Encodable) (hfirst : firstIndex ≤ UInt64.size) :
    SplitFits firstIndex bankCount actions ∧
        (∃ tables, split actions bankCount firstIndex = .ok tables) ∨
      ¬SplitFits firstIndex bankCount actions ∧
        split actions bankCount firstIndex = halt .sumOverflow := by
  have hstart : SplitFits firstIndex bankCount [] := by
    intro number _
    rw [List.filter_nil, List.length_nil]
    split <;> omega
  rw [← fit_empty_iff]
  rcases foldlM_route_cases (by simpa using hbanks) hencodable (fit_empty_iff.mpr hstart) with
    ⟨hfit, last, hlast⟩ | ⟨hfit, hlast⟩
  · refine .inl ⟨hfit, last.toList, ?_⟩
    exact Outcome.bind_eq_ok.mpr ⟨last, hlast, rfl⟩
  · refine .inr ⟨hfit, ?_⟩
    exact Outcome.bind_eq_halt.mpr (.inl hlast)

end Bank

namespace Screen

/-- The depth of a bank is checked without a fault, unless the number after the last index leaves
its machine word. -/
theorem checkDepth_eq_halt_iff {actions : List Action} {number start : Nat} {entries : List Entry}
    (h : List.Forall₂ Entry.Encodes (actions.zipIdx start) entries) (hstart : start < UInt64.size)
    (depth : Nat) (fault : Fault) :
    checkDepth depth ⟨number, entries.toArray⟩ = halt fault ↔
      fault = .sumOverflow ∧ UInt64.size ≤ start + actions.length := by
  have hlast : entries.getLast?.map Entry.index =
      (List.range' start actions.length).getLast? := by
    rw [← Bank.map_index_eq h, List.getLast?_map]
  rw [List.getLast?_range'] at hlast
  unfold checkDepth
  rw [List.back?_toArray]
  cases hback : entries.getLast? with
  | none =>
    rw [hback] at hlast
    have hnil : actions.length = 0 := by
      by_contra hne
      rw [if_neg hne] at hlast
      cases hlast
    simp only [Outcome.pure_ne_halt, false_iff, not_and]
    omega
  | some last =>
    rw [hback] at hlast
    have hindex : last.index + 1 = start + actions.length := by
      split at hlast
      · cases hlast
      · have := Option.some.inj hlast
        omega
    dsimp only
    rw [hindex, Outcome.guard_halt_eq_halt, Outcome.guard_refuse_eq_halt]
    simp only [Outcome.pure_ne_halt, and_false, or_false]
    exact and_comm

/-- Of the banks only bank 0, which comes first, can be too long to be numbered. -/
theorem checkDepths_eq_halt_iff {actions : List Action} {bankCount firstIndex : Nat}
    {banks : List Bank} (hsplit : Bank.split actions bankCount firstIndex = .ok banks)
    (hcount : 0 < bankCount) (hfirst : firstIndex < UInt64.size)
    (hlength : actions.length < UInt64.size) (encoding : Encoding) (fault : Fault) :
    checkDepths encoding banks = halt fault ↔ fault = .sumOverflow ∧ encoding.romDepth.isSome ∧
      UInt64.size ≤ firstIndex + (actions.filter (·.bank = 0)).length := by
  unfold checkDepths
  cases encoding.romDepth with
  | none => simp
  | some depth =>
    obtain ⟨hbanks, hentries⟩ := Bank.split_eq_ok hsplit
    cases banks with
    | nil => exact absurd hbanks (Nat.ne_of_lt hcount)
    | cons first rest =>
      have hrest : rest.forM (checkDepth depth.toNat) ≠ halt fault := by
        apply Outcome.forM_ne_halt
        intro bank hbank
        obtain ⟨i, hi, rfl⟩ := List.getElem_of_mem hbank
        rw [List.length_cons] at hbanks
        obtain ⟨entries, hget, hentries⟩ := hentries (i + 1) (by omega)
        rw [List.getElem?_cons_succ, List.getElem?_eq_getElem hi, Option.some.injEq] at hget
        rw [hget, ne_eq, checkDepth_eq_halt_iff hentries (by simp), not_and]
        have hle := List.length_filter_le (fun action : Action ↦ action.bank = i + 1) actions
        simp only [Nat.add_one_ne_zero, if_false]
        omega
      obtain ⟨entries, hget, hentries⟩ := hentries 0 hcount
      rw [List.getElem?_cons_zero, Option.some.injEq] at hget
      change (checkDepth depth.toNat first >>= fun _ ↦ rest.forM (checkDepth depth.toNat)) =
        halt fault ↔ _
      rw [Outcome.check_bind_eq_halt, or_iff_left fun hboth ↦ hrest hboth.2, hget,
        checkDepth_eq_halt_iff hentries hfirst]
      simp only [Option.isSome_some, true_and, if_true]

end Screen

/-! ## The actions of an accepted configuration -/

structure Action.Tabulable (config : Config) (action : Action) : Prop where
  bank_lt : action.bank < config.bankCount
  row_lt : action.cell.row < UInt16.size
  slot_eq : action.slot = action.cell.address
  col_lt : action.cell.col < gridColumns
  encodable : action.Encodable

namespace Config.Schedulable

variable {config : Config} {layout : Layout}

theorem row_lt_merged (h : config.Schedulable layout) :
    ∀ action ∈ config.mergedActions layout, action.cell.row < UInt16.size := by
  apply SlotMap.forall_mem_merged (P := fun action ↦ action.cell.row < UInt16.size)
    (Layout.ofCaptions_distinct h.layout_eq) (scheduled_distinct _)
  · intro action paint hrow
    exact hrow
  · intro action haction
    obtain ⟨i, hi, col, -, rfl⟩ := mem_scheduledActions_iff.mp haction
    exact Nat.lt_trans (Nat.add_lt_add_left hi _) h.rows_lt
  · intro literal hliteral
    rw [Layout.ofCaptions_cells h.layout_eq, List.mem_flatMap] at hliteral
    obtain ⟨caption, -, hliteral⟩ := hliteral
    obtain ⟨j, c, -, rfl⟩ := (caption.mem_cells_iff literal).mp hliteral
    exact caption.row.toNat_lt

/-- A slot that shows an address is in a label column, and no byte is requested there. -/
theorem encodable_merged (h : config.Schedulable layout) :
    ∀ action ∈ config.mergedActions layout, action.Encodable := by
  rintro action haction ⟨hread, htwice⟩
  obtain ⟨i, k, hvisible, hslot, -⟩ := h.traffic_merged.exists_visible_of_read haction hread
  cases hpaint : action.paint with
  | none =>
    rw [hpaint] at htwice
    cases htwice
  | some paint =>
    rcases (h.paint_mergedActions_iff action.slot paint).mp ⟨action, haction, rfl, hpaint⟩ with
      ⟨literal, -, -, rfl⟩ | ⟨j, -, col, hcell, hshows⟩
    · rw [hpaint] at htwice
      cases htwice
    · have hsame := Cell.address_inj (h.requestCell_col_lt i hvisible.byte_lt)
        (h.col_lt_of_shows hshows) (hslot.symm.trans hcell)
      cases hshows with
      | @nibble k nibble hk hmasked =>
        rw [hpaint] at htwice
        cases nibble <;> cases htwice
      | @label nibble hon hcovered =>
        apply ((h.sound.labelled hon).free nibble).ne_requestColumn hvisible.byte_lt
        exact (congrArg Cell.col hsame).symm

theorem tabulable_merged (h : config.Schedulable layout) :
    ∀ action ∈ config.mergedActions layout, action.Tabulable config := by
  intro action haction
  have hplace := h.traffic_merged.inPlace action haction
  exact ⟨h.traffic_merged.bank_lt h haction, h.row_lt_merged action haction, hplace.slot_eq,
    hplace.col_lt, h.encodable_merged action haction⟩

/-- There are not more actions than slots. -/
theorem length_merged_le (h : config.Schedulable layout) :
    (config.mergedActions layout).length ≤ UInt16.size * gridColumns := by
  have hnodup : ((config.mergedActions layout).map Action.slot).Nodup :=
    List.pairwise_map.mpr (h.traffic_merged.ordered.imp fun hlt ↦ Nat.ne_of_lt hlt)
  have hsubset : (config.mergedActions layout).map Action.slot ⊆
      List.range (UInt16.size * gridColumns) := by
    intro slot hslot
    obtain ⟨action, haction, rfl⟩ := List.mem_map.mp hslot
    obtain ⟨-, hrow, hslot, hcol, -⟩ := h.tabulable_merged action haction
    rw [List.mem_range, hslot, Cell.address]
    simp only [gridColumns] at hcol ⊢
    omega
  have hle := (hnodup.subperm hsubset).length_le
  rwa [List.length_map, List.length_range] at hle

end Config.Schedulable

namespace Config

def endIndex (config : Config) (actions : List Action) : Nat :=
  config.firstIndex.toNat + (actions.filter (·.bank = 0)).length

/-- A bank other than bank 0 has no more entries than there are actions. -/
theorem splitFits_iff {config : Config} {actions : List Action} (hcount : 0 < config.bankCount)
    (hlength : actions.length < UInt64.size) :
    Bank.SplitFits config.firstIndex.toNat config.bankCount actions ↔
      config.endIndex actions ≤ UInt64.size := by
  constructor
  · intro hfits
    exact hfits 0 hcount
  · intro hle number hnumber
    by_cases hzero : number = 0
    · subst hzero
      exact hle
    · rw [if_neg hzero, Nat.zero_add]
      exact Nat.le_trans (List.length_filter_le _ _) (Nat.le_of_lt hlength)

/-- One row of one byte, which makes three entries.  It is accepted with any first index. -/
def oneByte (firstIndex : UInt64) (romDepth : Option UInt64) : Config where
  rowCount := 1
  firstIndex := firstIndex
  pattern := { byteColumns := [4] }
  encoding := { romDepth }

end Config

namespace Screen

variable {config : Config} {screen : Screen}

theorem finalAddress_le (h : ofConfig config = .ok screen) :
    config.offset config.rowCount.toNat 0 ≤ UInt32.size := by
  obtain ⟨hcheck, -⟩ := ofConfig_eq_ok_iff.mp h
  obtain ⟨-, -, -, -, hlast⟩ := Config.check_eq_ok_iff.mp hcheck
  have hlt := Config.lastOffset_lt hlast
  rw [Config.lastOffset_eq] at hlt
  omega

/-- Compiling an accepted configuration faults only by numbering the entries of bank 0 past the
largest 64-bit number, or, where the depth is checked, up to it.  Scheduling and merging never
fail; every action has a bank that exists and a slot on the grid, and needs the secondary field
once at most. -/
theorem compile_eq_halt_iff (h : ofConfig config = .ok screen) :
    ∃ schedule actions, screen.schedule = .ok schedule ∧ schedule.finalAddress ≤ UInt32.size ∧
      screen.actions = .ok actions ∧ (∀ action ∈ actions, action.Tabulable config) ∧
      ∀ fault, screen.compile = halt fault ↔ fault = .sumOverflow ∧
        (UInt64.size < config.endIndex actions ∨
          config.encoding.romDepth.isSome ∧ config.endIndex actions = UInt64.size) := by
  have hschedulable := schedulable h
  have hcount := hschedulable.bankCount_pos
  have hlength : (config.mergedActions screen.layout).length < UInt64.size :=
    Nat.lt_of_le_of_lt hschedulable.length_merged_le (by decide)
  have hfirst : config.firstIndex.toNat < UInt64.size := config.firstIndex.toNat_lt
  have hbanks : ∀ action ∈ config.mergedActions screen.layout, action.bank < config.bankCount :=
    fun action haction ↦ (hschedulable.tabulable_merged action haction).bank_lt
  refine ⟨_, _, schedule_eq h, finalAddress_le h, actions_eq h, hschedulable.tabulable_merged,
    fun fault ↦ ?_⟩
  rw [compile_eq h, Outcome.bind_eq_halt]
  rcases Bank.split_cases hbanks hschedulable.encodable_merged (Nat.le_of_lt hfirst) with
    ⟨hfits, banks, hsplit⟩ | ⟨hfits, hsplit⟩
  · -- all entries have an index, so only the number after the last of bank 0 can be too large
    have hle := (Config.splitFits_iff hcount hlength).mp hfits
    have hdepths := checkDepths_eq_halt_iff hsplit hcount hfirst hlength config.encoding fault
    constructor
    · rintro (hhalt | ⟨other, hother, hhalt⟩)
      · exact absurd (hsplit.symm.trans hhalt) (Outcome.ok_ne_halt _ _)
      · obtain rfl := Except.ok.inj (hsplit.symm.trans hother)
        rcases Outcome.check_bind_eq_halt.mp hhalt with hdepth | ⟨-, hpure⟩
        · obtain ⟨hfault, hchecked, hend⟩ := hdepths.mp hdepth
          exact ⟨hfault, .inr ⟨hchecked, Nat.le_antisymm hle hend⟩⟩
        · exact absurd hpure (Outcome.pure_ne_halt _ _)
    · rintro ⟨hfault, hpast | ⟨hchecked, hend⟩⟩
      · exact absurd hle (Nat.not_le_of_lt hpast)
      · have hdepth := hdepths.mpr ⟨hfault, hchecked, Nat.le_of_eq hend.symm⟩
        exact .inr ⟨banks, hsplit, Outcome.check_bind_eq_halt.mpr (.inl hdepth)⟩
  · have hpast : UInt64.size < config.endIndex (config.mergedActions screen.layout) := by
      apply Nat.lt_of_not_le
      exact fun hle ↦ hfits ((Config.splitFits_iff hcount hlength).mpr hle)
    rw [hsplit, Outcome.halt_inj]
    constructor
    · rintro (hfault | ⟨banks, hbanks, -⟩)
      · exact ⟨hfault, .inl hpast⟩
      · exact absurd hbanks (Outcome.halt_ne_ok _ _)
    · rintro ⟨hfault, -⟩
      exact .inl hfault

theorem compile_eq_halt_iff_sample : ofConfig .sample = .ok sample ∧
    ∃ schedule actions, sample.schedule = .ok schedule ∧ schedule.finalAddress ≤ UInt32.size ∧
      sample.actions = .ok actions ∧ (∀ action ∈ actions, action.Tabulable .sample) ∧
      ∀ fault, sample.compile = halt fault ↔ fault = .sumOverflow ∧
        (UInt64.size < Config.sample.endIndex actions ∨
          Config.sample.encoding.romDepth.isSome ∧
            Config.sample.endIndex actions = UInt64.size) :=
  ⟨ofConfig_sample, compile_eq_halt_iff ofConfig_sample⟩

/-- The check of the depth faults if the last entry has the largest index, and splitting the entries
faults if the last but one has. -/
theorem compile_oneByte :
    (∃ screen, ofConfig (.oneByte 18446744073709551613 (some 1024)) = .ok screen ∧
      screen.compile = halt .sumOverflow) ∧
    ∃ screen, ofConfig (.oneByte 18446744073709551614 none) = .ok screen ∧
      screen.compile = halt .sumOverflow :=
  ⟨⟨_, rfl, by decide +kernel⟩, ⟨_, rfl, by decide +kernel⟩⟩

end Screen

end InfoScreen
