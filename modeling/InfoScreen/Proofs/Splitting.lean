import InfoScreen.Proofs.CompileFaults

/-!
# Splitting actions over banks

Actions may name their banks in any order.  Each is appended to its own bank, so a bank holds the
entries of its actions one behind the other, and an action finds its entry behind those of the
actions of its bank that come before it.  Every action has an entry, and there are no others.
-/

namespace InfoScreen

theorem Action.encodable_iff {action : Action} : action.Encodable ↔
    ∀ nibble offset, action.paint = some (.cursorAddress nibble offset) → action.read = none := by
  rw [Encodable, not_and]
  constructor
  · intro h nibble offset hpaint
    rw [hpaint] at h
    cases hread : action.read with
    | none => rfl
    | some _ => cases nibble <;> exact absurd rfl (h (by rw [hread]; rfl))
  · intro h hread htwice
    cases hpaint : action.paint with
    | none =>
      rw [hpaint] at htwice
      cases htwice
    | some paint =>
      rw [hpaint] at htwice
      cases paint with
      | literal byte => cases htwice
      | fetched nibble readSlot => cases nibble <;> cases htwice
      | cursorAddress nibble offset =>
        rw [h nibble offset hpaint] at hread
        cases hread

namespace Bank

variable {actions : List Action} {action : Action}

def base (firstIndex number : Nat) : Nat := if number = 0 then firstIndex else 0

/-- How many actions of a bank come before a position. -/
def rank (actions : List Action) (bank position : Nat) : Nat :=
  (actions.take position).countP (·.bank = bank)

/-- The tables hold the entries of the actions, each bank those of its own actions, in order and
numbered from its first index. -/
structure Distributes (firstIndex : Nat) (actions : List Action) (tables : List Bank) : Prop where
  /-- A bank has the entries of its own actions, in their order, and no others. -/
  entries : ∀ bank ∈ tables, List.Forall₂ Entry.Encodes
    ((actions.filter (·.bank = bank.number)).zipIdx (base firstIndex bank.number))
    bank.entries.toList
  index : ∀ bank ∈ tables, bank.entries.toList.map Entry.index =
    List.range' (base firstIndex bank.number) bank.entries.size
  /-- There are as many entries as actions. -/
  length : (tables.flatMap fun bank ↦ bank.entries.toList).length = actions.length
  /-- An action has its entry behind those of the earlier actions of its bank. -/
  place : ∀ position action, actions[position]? = some action → ∃ bank entry,
    tables[action.bank]? = some bank ∧
      bank.entries[rank actions action.bank position]? = some entry ∧
        Entry.encode (base firstIndex action.bank + rank actions action.bank position) action =
          .ok entry
  /-- Every entry is that of one action. -/
  source : ∀ bank ∈ tables, ∀ row < bank.entries.size, ∃! position, ∃ action,
    actions[position]? = some action ∧ action.bank = bank.number ∧
      rank actions bank.number position = row

/-! ## Ranks -/

theorem rank_cons_succ (action : Action) (rest : List Action) (bank position : Nat) :
    rank (action :: rest) bank (position + 1) =
      rank rest bank position + if action.bank = bank then 1 else 0 := by
  simp [rank, List.countP_cons]

/-- An action has its rank as its position among the actions of its bank. -/
theorem getElem?_filter_rank {position : Nat} (h : actions[position]? = some action) :
    (actions.filter (·.bank = action.bank))[rank actions action.bank position]? = some action := by
  induction actions generalizing position with
  | nil => simp at h
  | cons first rest ih =>
    cases position with
    | zero =>
      obtain rfl := Option.some.inj h
      rw [List.filter_cons_of_pos (by simp)]
      rfl
    | succ position =>
      rw [List.getElem?_cons_succ] at h
      rw [rank_cons_succ]
      by_cases hfirst : first.bank = action.bank
      · rw [List.filter_cons_of_pos (by simpa using hfirst), if_pos hfirst,
          List.getElem?_cons_succ, ih h]
      · rw [List.filter_cons_of_neg (by simpa using hfirst), if_neg hfirst, Nat.add_zero, ih h]

/-- Every position among the actions of a bank is the rank of one of them. -/
theorem exists_rank_eq {bank row : Nat}
    (h : (actions.filter (·.bank = bank))[row]? = some action) :
    ∃ position, actions[position]? = some action ∧ rank actions bank position = row := by
  induction actions generalizing row with
  | nil => simp at h
  | cons first rest ih =>
    -- an action of another bank moves the position on, but not the rank
    by_cases hfirst : first.bank = bank
    · rw [List.filter_cons_of_pos (by simpa using hfirst)] at h
      cases row with
      | zero => exact ⟨0, h, rfl⟩
      | succ row =>
        obtain ⟨position, hposition, hrank⟩ := ih h
        exact ⟨position + 1, hposition, by rw [rank_cons_succ, if_pos hfirst, hrank]⟩
    · rw [List.filter_cons_of_neg (by simpa using hfirst)] at h
      obtain ⟨position, hposition, hrank⟩ := ih h
      exact ⟨position + 1, hposition, by rw [rank_cons_succ, if_neg hfirst, hrank, Nat.add_zero]⟩

/-- Actions of one bank have their ranks in the order of their positions. -/
theorem rank_lt_rank {position later : Nat} (h : actions[position]? = some action)
    (hlater : position < later) :
    rank actions action.bank position < rank actions action.bank later := by
  induction actions generalizing position later with
  | nil => simp at h
  | cons first rest ih =>
    obtain ⟨later, rfl⟩ := Nat.exists_eq_succ_of_ne_zero (Nat.ne_of_gt (Nat.zero_lt_of_lt hlater))
    rw [Nat.succ_eq_add_one, rank_cons_succ]
    cases position with
    | zero =>
      obtain rfl := Option.some.inj h
      rw [if_pos rfl]
      exact Nat.succ_pos _
    | succ position =>
      rw [rank_cons_succ]
      exact Nat.add_lt_add_right (ih h (Nat.lt_of_succ_lt_succ hlater)) _

theorem rank_inj {position other : Nat} {action' : Action} (h : actions[position]? = some action)
    (hother : actions[other]? = some action') (hbank : action.bank = action'.bank)
    (hrank : rank actions action.bank position = rank actions action.bank other) :
    position = other := by
  rcases Nat.lt_trichotomy position other with hlt | heq | hlt
  · exact absurd hrank (Nat.ne_of_lt (rank_lt_rank h hlt))
  · exact heq
  · rw [hbank] at hrank
    exact absurd hrank.symm (Nat.ne_of_lt (rank_lt_rank hother hlt))

theorem countP_bank_lt_succ (actions : List Action) (bank : Nat) :
    actions.countP (·.bank < bank + 1) =
      actions.countP (·.bank < bank) + actions.countP (·.bank = bank) := by
  induction actions with
  | nil => rfl
  | cons action rest ih =>
    simp only [List.countP_cons, ih, decide_eq_true_eq]
    split <;> split <;> split <;> omega

/-- The banks together have all actions of a bank that exists. -/
theorem length_flatMap_filter_bank (actions : List Action) (bankCount : Nat) :
    ((List.range bankCount).flatMap fun bank ↦ actions.filter (·.bank = bank)).length =
      actions.countP (·.bank < bankCount) := by
  induction bankCount with
  | zero => simp
  | succ bank ih =>
    rw [List.range_succ, List.flatMap_append, List.length_append, ih, List.flatMap_singleton,
      countP_bank_lt_succ, ← List.countP_eq_length_filter]

theorem exists_entry {start : Nat} {entries : List Entry}
    (h : List.Forall₂ Entry.Encodes (actions.zipIdx start) entries) {position : Nat}
    (haction : actions[position]? = some action) :
    ∃ entry, entries[position]? = some entry ∧
      Entry.encode (start + position) action = .ok entry := by
  induction actions generalizing start entries position with
  | nil => simp at haction
  | cons first rest ih =>
    rw [List.zipIdx_cons] at h
    cases h with
    | cons hfirst hrest =>
      cases position with
      | zero =>
        obtain rfl := Option.some.inj haction
        exact ⟨_, rfl, hfirst⟩
      | succ position =>
        obtain ⟨entry, hentry, hencode⟩ := ih hrest haction
        refine ⟨entry, hentry, ?_⟩
        rwa [Nat.add_right_comm] at hencode

theorem distributes_of_split {bankCount firstIndex : Nat} {tables : List Bank}
    (hbanks : ∀ action ∈ actions, action.bank < bankCount)
    (h : split actions bankCount firstIndex = .ok tables) :
    Distributes firstIndex actions tables where
  entries bank hbank := (encodes_of_split h bank hbank).2
  index bank hbank := by
    have hentries := (encodes_of_split h bank hbank).2
    have hlength := hentries.length_eq
    rw [List.length_zipIdx] at hlength
    rw [map_index_eq hentries, hlength]
    rfl
  length := by
    have hlengths : tables.map (fun bank ↦ bank.entries.toList.length) =
        (List.range bankCount).map fun number ↦ (actions.filter (·.bank = number)).length := by
      apply map_split_eq h
      intro number _ start entries hentries
      simpa using hentries.length_eq.symm
    rw [List.length_flatMap, hlengths, ← List.length_flatMap, length_flatMap_filter_bank,
      List.countP_eq_length]
    simpa using hbanks
  place position action haction := by
    have hbank := hbanks action (List.mem_of_getElem? haction)
    obtain ⟨entries, hget, hentries⟩ := (split_eq_ok h).2 action.bank hbank
    obtain ⟨entry, hentry, hencode⟩ := exists_entry hentries (getElem?_filter_rank haction)
    exact ⟨_, entry, hget, by simpa using hentry, hencode⟩
  source bank hbank row hrow := by
    have hlength : (actions.filter (·.bank = bank.number)).length = bank.entries.size := by
      simpa using (encodes_of_split h bank hbank).2.length_eq
    rw [← hlength] at hrow
    obtain ⟨action, haction⟩ : ∃ action, (actions.filter (·.bank = bank.number))[row]? =
        some action := ⟨_, List.getElem?_eq_getElem hrow⟩
    have hown : action.bank = bank.number := by
      simpa using (List.mem_filter.mp (List.mem_of_getElem? haction)).2
    obtain ⟨position, hposition, hrank⟩ := exists_rank_eq haction
    refine ⟨position, ⟨action, hposition, hown, hrank⟩, ?_⟩
    rintro other ⟨action', hother, hown', hrank'⟩
    refine rank_inj hother hposition (hown'.trans hown.symm) ?_
    rw [hown', hrank', hrank]

variable {bankCount : Nat} {firstIndex : UInt64}

/-- All indices fit into a word if each of them does. -/
theorem splitFits_of_forall_lt (h : ∀ number < bankCount, ∀ i < actions.countP (·.bank = number),
    base firstIndex.toNat number + i < UInt64.size) :
    SplitFits firstIndex.toNat bankCount actions := by
  intro number hnumber
  rw [← List.countP_eq_length_filter]
  have hindex := h number hnumber
  have hbase : base firstIndex.toNat number < UInt64.size := by
    unfold base
    split
    · exact firstIndex.toNat_lt
    · decide
  unfold base at hindex hbase
  -- a bank without actions only needs its base to fit, any other one its last index
  cases hcount : actions.countP (·.bank = number) with
  | zero => omega
  | succ count =>
    have hlast := hindex count (by omega)
    omega

/-- Actions of banks that exist, none of which shows an address and reads, are split if their
indices fit into a word.  The tables are numbered in order and distribute the actions. -/
theorem split_distributes (hbanks : ∀ action ∈ actions, action.bank < bankCount)
    (honce : ∀ action ∈ actions, ∀ nibble offset,
      action.paint = some (.cursorAddress nibble offset) → action.read = none)
    (hindices : ∀ number < bankCount, ∀ i < actions.countP (·.bank = number),
      base firstIndex.toNat number + i < UInt64.size) :
    ∃ tables, split actions bankCount firstIndex.toNat = .ok tables ∧
      tables.map Bank.number = List.range bankCount ∧
        Distributes firstIndex.toNat actions tables := by
  have hencodable : ∀ action ∈ actions, action.Encodable := fun action haction ↦
    Action.encodable_iff.mpr (honce action haction)
  rcases split_cases hbanks hencodable (Nat.le_of_lt firstIndex.toNat_lt) with
    ⟨-, tables, hsplit⟩ | ⟨hfits, -⟩
  · exact ⟨tables, hsplit, map_number_eq hsplit, distributes_of_split hbanks hsplit⟩
  · exact absurd (splitFits_of_forall_lt hindices) hfits

/-- Actions of two banks in turn: a request, a character, a nibble and a label. -/
def interleaved : List Action := [
  ⟨0, ⟨0, 0⟩, 1, none, some 7⟩,
  ⟨1, ⟨0, 1⟩, 0, some (.literal 65), none⟩,
  ⟨2, ⟨0, 2⟩, 1, some (.fetched .high 0), none⟩,
  ⟨3, ⟨0, 3⟩, 0, some (.cursorAddress .low 7), none⟩]

/-- The last entry of bank 0 gets the largest index there is, and bank 2 stays empty. -/
theorem split_distributes_interleaved :
    (∀ action ∈ interleaved, action.bank < 3) ∧
    (∀ action ∈ interleaved, ∀ nibble offset,
      action.paint = some (.cursorAddress nibble offset) → action.read = none) ∧
    (∀ number < 3, ∀ i < interleaved.countP (·.bank = number),
      base 18446744073709551614 number + i < UInt64.size) ∧
    ∃ tables, split interleaved 3 18446744073709551614 = .ok tables ∧
      tables.map Bank.number = List.range 3 ∧
        Distributes 18446744073709551614 interleaved tables := by
  have hbanks : ∀ action ∈ interleaved, action.bank < 3 := by decide
  have honce : ∀ action ∈ interleaved, ∀ nibble offset,
      action.paint = some (.cursorAddress nibble offset) → action.read = none := by
    simp [interleaved]
  have hindices : ∀ number < 3, ∀ i < interleaved.countP (·.bank = number),
      base 18446744073709551614 number + i < UInt64.size := by decide +kernel
  exact ⟨hbanks, honce, hindices,
    @split_distributes interleaved 3 18446744073709551614 hbanks honce hindices⟩

end Bank

end InfoScreen
