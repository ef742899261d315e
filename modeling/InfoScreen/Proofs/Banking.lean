import InfoScreen.Proofs.Table
import InfoScreen.Proofs.Traffic

/-!
# Splitting rows over banks

Banks limit how many rows one physical memory holds.  How many banks there are must not show: the
entries of all banks, one bank after the other, are the entries that a single bank would hold, but
for their indices.  Bank numbers come from two places, the scheduler for scheduled slots and the
row of the cell for slots that only a caption fills.  The two agree, so bank numbers ascend along
the merged actions and sealing a bank cuts them in one place.
-/

namespace InfoScreen

def Config.unbanked (config : Config) : Config := { config with rowsPerBank := none }

def Action.unbanked (action : Action) : Action := { action with bank := 0 }

def Entry.unnumbered (entry : Entry) : Entry := { entry with index := 0 }

def Tables.entries (tables : Tables) : List Entry :=
  tables.banks.flatMap fun bank ↦ bank.entries.toList

namespace SlotMap

/-- One map has the actions of another, all in one bank. -/
def Unbanks (joined slots : SlotMap) : Prop :=
  ∀ slot : Nat, joined[slot]? = slots[slot]?.map Action.unbanked

namespace Unbanks

variable {config : Config} {joined slots : SlotMap}

theorem getD (h : joined.Unbanks slots) (slot : Nat) (fallback : Action) :
    joined.getD slot fallback.unbanked = (slots.getD slot fallback).unbanked := by
  rw [Std.TreeMap.getD_eq_getD_getElem?, Std.TreeMap.getD_eq_getD_getElem?, h slot]
  cases slots[slot]? <;> rfl

theorem insert (h : joined.Unbanks slots) (slot : Nat) (action : Action) :
    Unbanks (Std.TreeMap.insert joined slot action.unbanked)
      (Std.TreeMap.insert slots slot action) := by
  intro other
  rw [Std.TreeMap.getElem?_insert, Std.TreeMap.getElem?_insert, h other]
  split <;> rfl

theorem add (h : joined.Unbanks slots) (action : Action) :
    (joined.add action.unbanked).Unbanks (slots.add action) := by
  have hidle : action.unbanked.isIdle = action.isIdle := rfl
  unfold SlotMap.add
  rw [hidle]
  split
  · exact h
  · exact h.insert action.slot action

/-- A slot that only a caption fills is idle before, in whichever bank. -/
theorem put (h : joined.Unbanks slots) (literal : LiteralCell) :
    (SlotMap.put config.unbanked joined literal).Unbanks (SlotMap.put config slots literal) := by
  have hidle : Action.idle literal.cell (config.unbanked.bankAt literal.cell.row) =
      (Action.idle literal.cell (config.bankAt literal.cell.row)).unbanked := rfl
  unfold SlotMap.put
  rw [hidle, h.getD]
  exact h.insert literal.cell.address { slots.getD literal.cell.address
    (Action.idle literal.cell (config.bankAt literal.cell.row)) with
      paint := some (.literal literal.byte) }

theorem foldl_add (h : joined.Unbanks slots) (scheduled : List Action) :
    ((scheduled.map Action.unbanked).foldl SlotMap.add joined).Unbanks
      (scheduled.foldl SlotMap.add slots) := by
  induction scheduled generalizing joined slots with
  | nil => exact h
  | cons action rest ih => exact ih (h.add action)

theorem foldl_put (h : joined.Unbanks slots) (cells : List LiteralCell) :
    (cells.foldl (SlotMap.put config.unbanked) joined).Unbanks
      (cells.foldl (SlotMap.put config) slots) := by
  induction cells generalizing joined slots with
  | nil => exact h
  | cons literal rest ih => exact ih (h.put literal)

theorem values_eq (h : joined.Unbanks slots) :
    joined.values = slots.values.map Action.unbanked := by
  have hmap : joined.Equiv (Std.TreeMap.map (fun _ ↦ Action.unbanked) slots) := by
    apply Std.TreeMap.Equiv.of_forall_constGet?_eq
    intro slot
    rw [h slot, Std.TreeMap.getElem?_map]
  calc
    joined.values = (Std.TreeMap.map (fun _ ↦ Action.unbanked) slots).values := hmap.values_eq
    _ = (slots.toList.map fun entry ↦ (entry.1, entry.2.unbanked)).map Prod.snd := by
      rw [SlotMap.values_eq, Std.TreeMap.toList_map]
    _ = slots.values.map Action.unbanked := by
      rw [SlotMap.values_eq, List.map_map, List.map_map]
      rfl

end Unbanks

end SlotMap

/-- Without banks the merged actions are the same, in the only bank. -/
theorem Config.mergedActions_unbanked (config : Config) (layout : Layout) :
    config.unbanked.mergedActions layout =
      (config.mergedActions layout).map Action.unbanked := by
  have hscheduled : config.unbanked.scheduledActions layout config.rowCount.toNat =
      (config.scheduledActions layout config.rowCount.toNat).map Action.unbanked := by
    rw [scheduledActions, scheduledActions, List.map_map]
    rfl
  have hempty : SlotMap.Unbanks ∅ ∅ := by simp [SlotMap.Unbanks]
  have hmerged : (SlotMap.merged config.unbanked layout
      (config.unbanked.scheduledActions layout config.rowCount.toNat)).Unbanks
        (SlotMap.merged config layout
          (config.scheduledActions layout config.rowCount.toNat)) := by
    rw [hscheduled]
    exact (hempty.foldl_add _).foldl_put layout.cells
  exact hmerged.values_eq

/-! ## The banks one after the other -/

/-- Where bank numbers ascend, the actions below a bank come before those in it. -/
theorem filter_bank_lt_succ {actions : List Action}
    (hascending : actions.Pairwise fun a b ↦ a.bank ≤ b.bank) (bank : Nat) :
    actions.filter (·.bank < bank + 1) =
      actions.filter (·.bank < bank) ++ actions.filter (·.bank = bank) := by
  induction actions with
  | nil => rfl
  | cons action rest ih =>
    obtain ⟨hfirst, hrest⟩ := List.pairwise_cons.mp hascending
    rcases Nat.lt_trichotomy action.bank bank with hbelow | hsame | habove
    · rw [List.filter_cons_of_pos (by simp; omega), List.filter_cons_of_pos (by simpa using hbelow),
        List.filter_cons_of_neg (by simp; omega), ih hrest, List.cons_append]
    · have hnone : rest.filter (·.bank < bank) = [] := by
        apply List.filter_eq_nil_iff.mpr
        intro other hother
        have hle := hfirst other hother
        simp only [decide_eq_true_eq]
        omega
      rw [List.filter_cons_of_pos (by simp; omega), List.filter_cons_of_neg (by simp; omega),
        List.filter_cons_of_pos (by simpa using hsame), ih hrest, hnone]
      rfl
    · rw [List.filter_cons_of_neg (by simp; omega), List.filter_cons_of_neg (by simp; omega),
        List.filter_cons_of_neg (by simp; omega), ih hrest]

/-- Actions whose bank numbers ascend are those of bank 0, then those of bank 1, and so on. -/
theorem flatMap_filter_bank {actions : List Action}
    (hascending : actions.Pairwise fun a b ↦ a.bank ≤ b.bank) (bankCount : Nat) :
    ((List.range bankCount).flatMap fun bank ↦ actions.filter (·.bank = bank)) =
      actions.filter (·.bank < bankCount) := by
  induction bankCount with
  | zero => simp
  | succ bank ih =>
    rw [List.range_succ, List.flatMap_append, ih, filter_bank_lt_succ hascending,
      List.flatMap_singleton]

namespace Config.Traffic

variable {config : Config} {layout : Layout} {actions : List Action}

/-- Sealing banks cuts the actions into pieces and drops none. -/
theorem flatMap_banks (h : config.Traffic actions) (hschedulable : config.Schedulable layout) :
    ((List.range config.bankCount).flatMap fun bank ↦ actions.filter (·.bank = bank)) =
      actions := by
  rw [flatMap_filter_bank h.banks_ascending, List.filter_eq_self]
  intro action haction
  exact decide_eq_true (h.bank_lt hschedulable haction)

end Config.Traffic

theorem Entry.encode_unbanked {index : Nat} {action : Action} {entry : Entry}
    (h : encode index action = .ok entry) :
    encode 0 action.unbanked = .ok entry.unnumbered := by
  obtain ⟨honce, rfl⟩ := encode_eq_ok_iff.mp h
  exact encode_eq_ok_iff.mpr ⟨honce, rfl⟩

/-- But for their indices, the entries of a bank depend on its actions alone. -/
theorem Bank.map_unnumbered_eq {actions : List Action} {start : Nat} {entries : List Entry}
    (h : List.Forall₂ Entry.Encodes (actions.zipIdx start) entries) :
    entries.map (fun entry ↦ (.ok entry.unnumbered : Outcome Entry)) =
      actions.map fun action ↦ Entry.encode 0 action.unbanked := by
  induction actions generalizing start entries with
  | nil =>
    cases h
    rfl
  | cons action rest ih =>
    rw [List.zipIdx_cons] at h
    cases h with
    | cons hfirst hrest =>
      rw [List.map_cons, List.map_cons, ih hrest, Entry.encode_unbanked hfirst]

namespace Screen

variable {config : Config} {screen : Screen} {tables : Tables}

/-- But for their indices, the entries of the tables are the merged actions, whatever the banks. -/
theorem entries_unnumbered_eq (h : ofConfig config = .ok screen)
    (hcompile : screen.compile = .ok tables) :
    tables.entries.map (fun entry ↦ (.ok entry.unnumbered : Outcome Entry)) =
      (config.mergedActions screen.layout).map fun action ↦ Entry.encode 0 action.unbanked := by
  have hbanks := Bank.map_split_eq (compile_eq_ok h hcompile).1
    (f := fun bank ↦ bank.entries.toList.map fun entry ↦ (.ok entry.unnumbered : Outcome Entry))
    fun _ _ _ _ hentries ↦ Bank.map_unnumbered_eq hentries
  have htraffic := (schedulable h).traffic_merged
  rw [Tables.entries, List.map_flatMap, List.flatMap_def, hbanks, ← List.flatMap_def,
    ← List.map_flatMap, htraffic.flatMap_banks (schedulable h)]

/-- What is accepted with banks is accepted without. -/
theorem ofConfig_unbanked (h : ofConfig config = .ok screen) :
    ofConfig config.unbanked = .ok ⟨config.unbanked, screen.layout⟩ := by
  obtain ⟨hcheck, -, hlayout, hcells⟩ := ofConfig_eq_ok_iff.mp h
  obtain ⟨hrows, hrest⟩ := Config.check_eq_ok_iff.mp hcheck
  obtain ⟨hcount, -, hend⟩ := Config.checkRows_eq_ok_iff.mp hrows
  have hbank : ∀ rows : UInt16, config.unbanked.rowsPerBank = some rows → 0 < rows.toNat :=
    nofun
  have hrows' : config.unbanked.checkRows = .ok () := by
    apply Config.checkRows_eq_ok_iff.mpr
    exact ⟨hcount, hbank, hend⟩
  apply ofConfig_eq_ok_iff.mpr
  exact ⟨Config.check_eq_ok_iff.mpr ⟨hrows', hrest⟩, rfl, hlayout, hcells⟩

/-- Banks are transparent.  A configuration that is accepted with banks is accepted without, and
where both compile, the banks are numbered in order and their entries, one bank after the other,
are those of the merged actions and of the single bank in everything but the index. -/
theorem compile_unbanked (h : ofConfig config = .ok screen) :
    ∃ joined, ofConfig config.unbanked = .ok joined ∧
      ∀ tables single, screen.compile = .ok tables → joined.compile = .ok single →
        tables.banks.map Bank.number = List.range config.bankCount ∧
        single.banks.map Bank.number = [0] ∧
        tables.entries.map (fun entry ↦ .ok entry.unnumbered) =
          (config.mergedActions screen.layout).map (fun action ↦
            Entry.encode 0 action.unbanked) ∧
        tables.entries.map Entry.unnumbered = single.entries.map Entry.unnumbered ∧
        tables.finalAddress = single.finalAddress := by
  have hjoined := ofConfig_unbanked h
  refine ⟨_, hjoined, fun tables single hcompile hsingle ↦ ?_⟩
  obtain ⟨hsplit, hfinal⟩ := compile_eq_ok h hcompile
  obtain ⟨hsplit', hfinal'⟩ := compile_eq_ok hjoined hsingle
  have hentries : tables.entries.map (fun entry ↦ (.ok entry.unnumbered : Outcome Entry)) =
      single.entries.map fun entry ↦ .ok entry.unnumbered := by
    rw [entries_unnumbered_eq h hcompile, entries_unnumbered_eq hjoined hsingle,
      Config.mergedActions_unbanked, List.map_map]
    rfl
  refine ⟨?_, ?_, entries_unnumbered_eq h hcompile, ?_, hfinal.trans hfinal'.symm⟩
  · exact Bank.map_number_eq hsplit
  · exact Bank.map_number_eq hsplit'
  · apply (List.map_inj_right fun a b hab ↦ (Except.ok.inj hab : a = b)).mp
    rw [List.map_map, List.map_map]
    exact hentries

theorem compile_unbanked_sample : ∃ joined tables single,
    ofConfig .sample = .ok sample ∧ ofConfig Config.sample.unbanked = .ok joined ∧
      sample.compile = .ok tables ∧ joined.compile = .ok single ∧
      tables.banks.map Bank.number = [0, 1] ∧ single.banks.map Bank.number = [0] ∧
      tables.entries.map (fun entry ↦ .ok entry.unnumbered) =
        (Config.sample.mergedActions sample.layout).map (fun action ↦
          Entry.encode 0 action.unbanked) ∧
      tables.entries.map Entry.unnumbered = single.entries.map Entry.unnumbered ∧
      tables.finalAddress = single.finalAddress := by
  obtain ⟨joined, hjoined, htransparent⟩ := compile_unbanked ofConfig_sample
  obtain rfl := Except.ok.inj ((ofConfig_unbanked ofConfig_sample).symm.trans hjoined)
  have hcompiled : sample.compile.toBool = true := by decide +kernel
  have hcompiled' : (⟨Config.sample.unbanked, sample.layout⟩ : Screen).compile.toBool = true := by
    decide +kernel
  cases hcompile : sample.compile with
  | error failure =>
    rw [hcompile] at hcompiled
    cases hcompiled
  | ok tables =>
    cases hsingle : (⟨Config.sample.unbanked, sample.layout⟩ : Screen).compile with
    | error failure =>
      rw [hsingle] at hcompiled'
      cases hcompiled'
    | ok single =>
      exact ⟨_, tables, single, ofConfig_sample, hjoined, rfl, hsingle,
        htransparent tables single hcompile hsingle⟩

end Screen

end InfoScreen
