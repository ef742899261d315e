import InfoScreen.Proofs.BankNumbers
import InfoScreen.Proofs.CompileFaults

/-!
# The depth of the tables

The check of the table depth looks at the last entry of a bank and takes a bank without entries to
be of no depth.  This decides for all entries, because the entries of a bank are numbered without
gaps and no bank is empty, whatever the captions hide.  So compiling succeeds exactly if every
entry has an index below the depth.  Otherwise the first bank that has an entry beyond it is named,
and how many entries it would take, those reserved in front of bank 0 included.
-/

namespace InfoScreen

namespace Bank

/-- The bank has an entry, and its entries are numbered without gaps from its first index on. -/
structure Filled (firstIndex : Nat) (bank : Bank) : Prop where
  size_pos : 0 < bank.entries.size
  indices : bank.entries.toList.map Entry.index =
    List.range' (if bank.number = 0 then firstIndex else 0) bank.entries.size

def Within (depth : Nat) (bank : Bank) : Prop := ∀ entry ∈ bank.entries, entry.index < depth

/-- Of some banks, the lowest-numbered one with an entry that is not below the depth. -/
structure FirstBeyond (depth : Nat) (banks : List Bank) (bank : Bank) : Prop where
  mem : bank ∈ banks
  beyond : ¬bank.Within depth
  before : ∀ other ∈ banks, other.number < bank.number → other.Within depth

variable {firstIndex depth bankCount : Nat} {bank : Bank} {banks : List Bank}
  {actions : List Action}

namespace Filled

/-- The number after the last index is the index that a next entry would get. -/
theorem exists_last (h : bank.Filled firstIndex) :
    ∃ last, bank.entries.back? = some last ∧ last.index + 1 = bank.nextIndex firstIndex := by
  have hpos := h.size_pos
  have hlast := congrArg List.getLast? h.indices
  rw [List.getLast?_map, List.getLast?_range', if_neg (Nat.ne_of_gt hpos),
    Array.getLast?_toList] at hlast
  obtain ⟨last, hback, hindex⟩ := Option.map_eq_some_iff.mp hlast
  refine ⟨last, hback, ?_⟩
  rw [hindex, nextIndex]
  omega

theorem within_iff (h : bank.Filled firstIndex) :
    bank.Within depth ↔ bank.nextIndex firstIndex ≤ depth := by
  have hpos := h.size_pos
  have hindices : bank.Within depth ↔
      ∀ index ∈ bank.entries.toList.map Entry.index, index < depth := by
    simp [Within]
  rw [hindices, h.indices, nextIndex]
  simp only [List.mem_range'_1]
  constructor
  · intro hbelow
    have hlast := hbelow ((if bank.number = 0 then firstIndex else 0) + bank.entries.size - 1)
      (by omega)
    omega
  · intro hle index hindex
    omega

end Filled

/-- A bank that gets an action is filled, with as many entries as it gets actions. -/
theorem filled_of_split (h : split actions bankCount firstIndex = .ok banks)
    (hoccurs : ∀ number < bankCount, ∃ action ∈ actions, action.bank = number) :
    ∀ bank ∈ banks, bank.Filled firstIndex ∧ bank.entries.size ≤ actions.length := by
  intro bank hbank
  obtain ⟨hnumber, hentries⟩ := encodes_of_split h bank hbank
  obtain ⟨action, haction, hown⟩ := hoccurs bank.number hnumber
  have hindices := map_index_eq hentries
  have hsize : bank.entries.size = (actions.filter (·.bank = bank.number)).length := by
    simpa using congrArg List.length hindices
  have hmem : action ∈ actions.filter (·.bank = bank.number) :=
    List.mem_filter.mpr ⟨haction, decide_eq_true hown⟩
  rw [← hsize] at hindices
  refine ⟨⟨?_, hindices⟩, ?_⟩
  · rw [hsize]
    exact List.length_pos_of_mem hmem
  · rw [hsize]
    exact List.length_filter_le _ _

end Bank

/-- Banks are refused for the first one with an entry that is not below the depth, with the number
after the last index of that bank. -/
def Encoding.RefusesDepth (encoding : Encoding) (banks : List Bank) (failure : Failure) : Prop :=
  ∃ (depth : UInt64) (bank : Bank) (last : Entry), encoding.romDepth = some depth ∧
    bank.FirstBeyond depth.toNat banks ∧ bank.entries.back? = some last ∧
    failure = .refusal (.tableOverflow bank.number (last.index + 1) depth.toNat)

namespace Screen

/-! ## The check -/

section Check

variable {banks : List Bank} {bank : Bank} {firstIndex depth : Nat} {encoding : Encoding}

/-- The check of a filled bank compares what would be the next index with the depth. -/
theorem checkDepth_eq (hfilled : bank.Filled firstIndex)
    (hroom : bank.nextIndex firstIndex < UInt64.size) :
    checkDepth depth bank =
      if bank.nextIndex firstIndex ≤ depth then pure ()
      else refuse (.tableOverflow bank.number (bank.nextIndex firstIndex) depth) := by
  obtain ⟨last, hback, hnext⟩ := hfilled.exists_last
  rw [← hnext] at hroom ⊢
  rw [checkDepth, hback]
  dsimp only
  rw [if_neg (Nat.not_le_of_lt hroom)]
  by_cases hle : last.index + 1 ≤ depth
  · rw [if_pos hle, if_neg (Nat.not_lt_of_le hle)]
  · rw [if_neg hle, if_pos (Nat.lt_of_not_le hle)]

theorem checkDepth_eq_ok_iff (hfilled : bank.Filled firstIndex)
    (hroom : bank.nextIndex firstIndex < UInt64.size) :
    checkDepth depth bank = .ok () ↔ bank.Within depth := by
  rw [checkDepth_eq hfilled hroom, hfilled.within_iff]
  by_cases hle : bank.nextIndex firstIndex ≤ depth <;> simp [hle]

theorem checkDepth_eq_error_iff (hfilled : bank.Filled firstIndex)
    (hroom : bank.nextIndex firstIndex < UInt64.size) {failure : Failure} :
    checkDepth depth bank = .error failure ↔ ¬bank.Within depth ∧
      ∃ last, bank.entries.back? = some last ∧
        failure = .refusal (.tableOverflow bank.number (last.index + 1) depth) := by
  obtain ⟨last, hback, hnext⟩ := hfilled.exists_last
  rw [checkDepth_eq hfilled hroom, hfilled.within_iff, hback, ← hnext]
  by_cases hle : last.index + 1 ≤ depth
  · simp [hle]
  · simp [hle, refuse, eq_comm]

variable (hfilled : ∀ bank ∈ banks, bank.Filled firstIndex)
  (hroom : ∀ bank ∈ banks, bank.nextIndex firstIndex < UInt64.size)

include hfilled hroom

theorem checkDepths_eq_ok_iff : checkDepths encoding banks = .ok () ↔
    ∀ depth, encoding.romDepth = some depth → ∀ bank ∈ banks, bank.Within depth.toNat := by
  unfold checkDepths
  cases encoding.romDepth with
  | none => exact ⟨fun _ ↦ nofun, fun _ ↦ rfl⟩
  | some depth =>
    have hbank : ∀ bank ∈ banks,
        (checkDepth depth.toNat bank = .ok () ↔ bank.Within depth.toNat) :=
      fun bank hbank ↦ checkDepth_eq_ok_iff (hfilled bank hbank) (hroom bank hbank)
    dsimp only
    rw [Outcome.forM_eq_ok_iff, forall₂_congr hbank]
    simp

/-- The banks are checked in the order of their numbers, up to the first that is refused. -/
theorem checkDepths_eq_error_iff (hordered : banks.Pairwise fun a b ↦ a.number < b.number)
    {failure : Failure} :
    checkDepths encoding banks = .error failure ↔ encoding.RefusesDepth banks failure := by
  unfold checkDepths Encoding.RefusesDepth
  cases encoding.romDepth with
  | none => simp
  | some depth =>
    dsimp only
    rw [Outcome.forM_eq_error_iff]
    constructor
    · rintro ⟨before, bank, after, rfl, hbefore, hrefused⟩
      have hmem : bank ∈ before ++ bank :: after := by simp
      obtain ⟨hbeyond, last, hback, hfailure⟩ :=
        (checkDepth_eq_error_iff (hfilled bank hmem) (hroom bank hmem)).mp hrefused
      refine ⟨depth, bank, last, rfl, ⟨hmem, hbeyond, fun other hother hlt ↦ ?_⟩, hback, hfailure⟩
      obtain ⟨-, hafter, -⟩ := List.pairwise_append.mp hordered
      rcases List.mem_append.mp hother with hearlier | hlater
      · exact (checkDepth_eq_ok_iff (hfilled other hother) (hroom other hother)).mp
          (hbefore other hearlier)
      · rcases List.mem_cons.mp hlater with rfl | hlater
        · exact absurd hlt (Nat.lt_irrefl _)
        · exact absurd hlt (Nat.lt_asymm ((List.pairwise_cons.mp hafter).1 other hlater))
    · rintro ⟨own, bank, last, hown, hfirst, hback, hfailure⟩
      obtain rfl := Option.some.inj hown
      obtain ⟨before, after, rfl⟩ := List.append_of_mem hfirst.mem
      obtain ⟨-, -, hbefore⟩ := List.pairwise_append.mp hordered
      refine ⟨before, bank, after, rfl, fun other hother ↦ ?_, ?_⟩
      · have hmem : other ∈ before ++ bank :: after := List.mem_append_left _ hother
        have hlt := hbefore other hother bank List.mem_cons_self
        exact (checkDepth_eq_ok_iff (hfilled other hmem) (hroom other hmem)).mpr
          (hfirst.before other hmem hlt)
      · exact (checkDepth_eq_error_iff (hfilled bank hfirst.mem) (hroom bank hfirst.mem)).mpr
          ⟨hfirst.beyond, last, hback, hfailure⟩

end Check

/-- The first bank just fits its depth, the three reserved entries included, and the second bank,
to which the caption below the schedule goes, does not. -/
def overfull : Screen :=
  let config : Config :=
    { Config.sample with
      firstIndex := 3
      captions := [⟨"HI", 9, 5⟩, ⟨"-", 10, 0⟩, ⟨"INFO", 12, 20⟩]
      encoding := { romDepth := some 10 } }
  ⟨config, ⟨config.captions.flatMap Caption.cells⟩⟩

variable {config : Config} {screen : Screen} {actions : List Action}

/-- An accepted configuration is compiled if and only if every entry has an index below the table
depth, provided that the entries can be numbered at all.  If it is refused, that is for the first
bank with an entry beyond the depth, with the number after its last index.  The banks are those of
the split, and none of them is empty. -/
theorem compile_eq_ok_iff_within (h : ofConfig config = .ok screen)
    (hactions : screen.actions = .ok actions)
    (hroom : config.firstIndex.toNat + actions.length < UInt64.size) :
    ∃ schedule banks, screen.schedule = .ok schedule ∧
      Bank.split actions config.bankCount config.firstIndex.toNat = .ok banks ∧
      banks.map Bank.number = List.range config.bankCount ∧
      (∀ bank ∈ banks, bank.Filled config.firstIndex.toNat) ∧
      (∀ tables, screen.compile = .ok tables ↔
        (∀ depth, config.encoding.romDepth = some depth →
          ∀ bank ∈ banks, bank.Within depth.toNat) ∧
        tables = ⟨banks, config.encoding, schedule.finalAddress⟩) ∧
      ∀ failure, screen.compile = .error failure ↔
        config.encoding.RefusesDepth banks failure := by
  have hschedulable := schedulable h
  obtain rfl := Except.ok.inj ((actions_eq h).symm.trans hactions)
  have hbanks : ∀ action ∈ config.mergedActions screen.layout, action.bank < config.bankCount :=
    fun action haction ↦ (hschedulable.tabulable_merged action haction).bank_lt
  have hfits : Bank.SplitFits config.firstIndex.toNat config.bankCount
      (config.mergedActions screen.layout) := by
    intro number _
    have hle := List.length_filter_le (fun action : Action ↦ action.bank = number)
      (config.mergedActions screen.layout)
    split <;> omega
  rcases Bank.split_cases hbanks hschedulable.encodable_merged
    (Nat.le_of_lt config.firstIndex.toNat_lt) with ⟨-, banks, hsplit⟩ | ⟨hover, -⟩
  · have hfilled := Bank.filled_of_split hsplit fun number ↦
      (hschedulable.exists_merged_of_bank_iff number).mpr
    have hnext : ∀ bank ∈ banks, bank.nextIndex config.firstIndex.toNat < UInt64.size := by
      intro bank hbank
      have hsize := (hfilled bank hbank).2
      rw [Bank.nextIndex]
      split <;> omega
    have hordered : banks.Pairwise fun a b ↦ a.number < b.number := by
      rw [← List.pairwise_map, Bank.map_number_eq hsplit]
      exact List.pairwise_lt_range
    have hfilled : ∀ bank ∈ banks, bank.Filled config.firstIndex.toNat :=
      fun bank hbank ↦ (hfilled bank hbank).1
    refine ⟨_, banks, schedule_eq h, hsplit, Bank.map_number_eq hsplit, hfilled,
      fun tables ↦ ?_, fun failure ↦ ?_⟩
    · rw [compile_eq h, hsplit, Outcome.ok_bind, Outcome.check_bind_eq_ok, Outcome.pure_eq_ok,
        checkDepths_eq_ok_iff hfilled hnext]
      exact and_congr_right fun _ ↦ eq_comm
    · rw [compile_eq h, hsplit, Outcome.ok_bind, Outcome.bind_eq_error,
        checkDepths_eq_error_iff hfilled hnext hordered]
      simp
  · exact absurd hfits hover

theorem compile_eq_ok_iff_within_overfull :
    ofConfig overfull.config = .ok overfull ∧ ∃ actions, overfull.actions = .ok actions ∧
      overfull.config.firstIndex.toNat + actions.length < UInt64.size ∧
      ∃ banks, Bank.split actions 2 3 = .ok banks ∧ (∀ bank ∈ banks, bank.Filled 3) ∧
        (∀ tables, overfull.compile ≠ .ok tables) ∧
        overfull.config.encoding.RefusesDepth banks (.refusal (.tableOverflow 1 13 10)) := by
  have hconfig : ofConfig overfull.config = .ok overfull := rfl
  have hcount : overfull.actions.map List.length = .ok 20 := by decide +kernel
  have hcompile : overfull.compile = .error (.refusal (.tableOverflow 1 13 10)) := by decide +kernel
  obtain ⟨actions, hactions, hlength⟩ := Outcome.map_eq_ok.mp hcount
  have hroom : overfull.config.firstIndex.toNat + actions.length < UInt64.size := by
    rw [hlength]
    decide
  obtain ⟨-, banks, -, hsplit, -, hfilled, -, hrefused⟩ :=
    compile_eq_ok_iff_within hconfig hactions hroom
  refine ⟨hconfig, actions, hactions, hroom, banks, hsplit, hfilled, ?_, (hrefused _).mp hcompile⟩
  intro tables htables
  rw [hcompile] at htables
  cases htables

end Screen

end InfoScreen
