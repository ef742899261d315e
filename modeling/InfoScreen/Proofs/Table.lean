import InfoScreen.Table
import Mathlib.Data.List.Forall2
import InfoScreen.Proofs.Outcome

/-!
# Entries and banks

An entry keeps of an action what the hardware needs, and a bank holds the entries of its own
actions, in their order and numbered without gaps.
-/

namespace InfoScreen

namespace Entry

/-- The entry of an action, if the action does not need the secondary field twice. -/
theorem encode_eq_ok_iff {index : Nat} {action : Action} {entry : Entry} :
    encode index action = .ok entry ↔
      ¬(action.read.isSome ∧ (Paint.fields action.paint).2.2.isSome) ∧
        entry =
          { index
            address := if action.paint.isSome then action.cell.address else 0
            valueType := (Paint.fields action.paint).1
            value := (Paint.fields action.paint).2.1
            secondary := (action.read.or (Paint.fields action.paint).2.2).getD 0
            displayWrite := action.paint.isSome
            memoryRead := action.read.isSome } := by
  unfold encode
  rw [Outcome.guard_halt_eq_ok, Outcome.pure_eq_ok]
  exact and_congr_right fun _ ↦ eq_comm

def Encodes (numbered : Action × Nat) (entry : Entry) : Prop :=
  encode numbered.2 numbered.1 = .ok entry

variable {index : Nat} {action : Action} {entry : Entry}

theorem displayWrite_of_encode (h : encode index action = .ok entry) :
    entry.displayWrite = action.paint.isSome := by
  rw [(encode_eq_ok_iff.mp h).2]

theorem memoryRead_of_encode (h : encode index action = .ok entry) :
    entry.memoryRead = action.read.isSome := by
  rw [(encode_eq_ok_iff.mp h).2]

/-- The secondary field of a slot that reads is the offset of the requested byte. -/
theorem secondary_of_encode (h : encode index action = .ok entry) {offset : UInt32}
    (hread : action.read = some offset) : entry.secondary = offset := by
  rw [(encode_eq_ok_iff.mp h).2, hread]
  rfl

theorem address_of_encode (h : encode index action = .ok entry) (hpaint : action.paint.isSome) :
    entry.address = action.cell.address := by
  rw [(encode_eq_ok_iff.mp h).2]
  exact if_pos hpaint

end Entry

namespace Bank

variable {firstIndex : Nat} {banks next last : Array Bank} {action : Action} {actions : List Action}

theorem nextIndex_push (bank : Bank) (entry : Entry) (firstIndex : Nat) :
    (bank.push entry).nextIndex firstIndex = bank.nextIndex firstIndex + 1 := by
  rw [nextIndex, nextIndex, push, Array.size_push]
  rfl

theorem route_eq {own : Bank} (hown : banks[action.bank]? = some own) :
    route firstIndex banks action = (own.nextEntry firstIndex action >>= fun entry ↦
      pure (banks.modify action.bank fun bank ↦ bank.push entry)) := by
  simp only [route, hown]

/-- One action is appended to its bank, and the other banks stay as they are. -/
theorem route_eq_ok (h : route firstIndex banks action = .ok next) :
    ∃ bank entry, banks[action.bank]? = some bank ∧
      Entry.encode (bank.nextIndex firstIndex) action = .ok entry ∧
      next = banks.modify action.bank fun bank ↦ bank.push entry := by
  cases hbank : banks[action.bank]? with
  | none =>
    simp only [route, hbank] at h
    exact absurd h (Outcome.halt_ne_ok _ _)
  | some bank =>
    rw [route_eq hbank] at h
    obtain ⟨entry, hentry, h⟩ := Outcome.bind_eq_ok.mp h
    unfold nextEntry at hentry
    rw [Outcome.guard_halt_eq_ok] at hentry
    exact ⟨bank, entry, rfl, hentry.2, (Outcome.pure_eq_ok.mp h).symm⟩

/-- Every bank is extended by the entries of its own actions. -/
theorem foldlM_route_eq_ok (h : actions.foldlM (route firstIndex) banks = .ok last) :
    last.size = banks.size ∧
      ∀ number bank, banks[number]? = some bank → ∃ entries,
        last[number]? = some { bank with entries := bank.entries ++ entries.toArray } ∧
        List.Forall₂ Entry.Encodes
          ((actions.filter (·.bank = number)).zipIdx (bank.nextIndex firstIndex)) entries := by
  induction actions generalizing banks with
  | nil =>
    obtain rfl := Outcome.pure_eq_ok.mp h
    refine ⟨rfl, fun number bank hbank ↦ ⟨[], ?_, .nil⟩⟩
    simpa using hbank
  | cons action rest ih =>
    rw [List.foldlM_cons] at h
    obtain ⟨next, hnext, h⟩ := Outcome.bind_eq_ok.mp h
    obtain ⟨own, entry, hown, hentry, rfl⟩ := route_eq_ok hnext
    obtain ⟨hsize, hrest⟩ := ih h
    refine ⟨by rw [hsize, Array.size_modify], fun number bank hbank ↦ ?_⟩
    by_cases hnumber : action.bank = number
    · subst hnumber
      obtain rfl := Option.some.inj (hown.symm.trans hbank)
      obtain ⟨entries, hlast, hentries⟩ := hrest action.bank (own.push entry) (by
        rw [Array.getElem?_modify, if_pos rfl, hown, Option.map_some])
      refine ⟨entry :: entries, ?_, ?_⟩
      · rw [hlast]
        simp [push]
      · rw [List.filter_cons_of_pos (by simp), List.zipIdx_cons]
        apply List.Forall₂.cons
        · exact hentry
        · rwa [nextIndex_push] at hentries
    · obtain ⟨entries, hlast, hentries⟩ := hrest number bank (by
        rw [Array.getElem?_modify, if_neg hnumber, hbank])
      refine ⟨entries, hlast, ?_⟩
      rwa [List.filter_cons_of_neg (by simpa using hnumber)]

/-- A bank of a split holds the entries of its own actions, numbered from the first index if it is
bank 0 and from zero otherwise. -/
theorem split_eq_ok {bankCount : Nat} {tables : List Bank}
    (h : split actions bankCount firstIndex = .ok tables) :
    tables.length = bankCount ∧
      ∀ number < bankCount, ∃ entries,
        tables[number]? = some ⟨number, entries.toArray⟩ ∧
        List.Forall₂ Entry.Encodes
          ((actions.filter (·.bank = number)).zipIdx (if number = 0 then firstIndex else 0))
          entries := by
  obtain ⟨last, hlast, h⟩ := Outcome.bind_eq_ok.mp h
  obtain rfl := Outcome.pure_eq_ok.mp h
  obtain ⟨hsize, hbanks⟩ := foldlM_route_eq_ok hlast
  refine ⟨by simpa using hsize, fun number hnumber ↦ ?_⟩
  obtain ⟨entries, hget, hentries⟩ := hbanks number ⟨number, #[]⟩ (by simp [hnumber])
  refine ⟨entries, ?_, hentries⟩
  rw [Array.getElem?_toList, hget]
  simp

/-- Every entry is that of an action. -/
theorem exists_action_of_mem {start : Nat} {entries : List Entry}
    (h : List.Forall₂ Entry.Encodes (actions.zipIdx start) entries) {entry : Entry}
    (hentry : entry ∈ entries) :
    ∃ action ∈ actions, ∃ index, Entry.encode index action = .ok entry := by
  obtain ⟨hlength, hencodes⟩ := List.forall₂_iff_get.mp h
  obtain ⟨n, hn, rfl⟩ := List.getElem_of_mem hentry
  have hn' : n < (actions.zipIdx start).length := hlength ▸ hn
  have hencode := hencodes n hn' hn
  rw [List.get_eq_getElem, List.get_eq_getElem, List.getElem_zipIdx] at hencode
  rw [List.length_zipIdx] at hn'
  exact ⟨actions[n], List.getElem_mem hn', start + n, hencode⟩

/-- What a bank of a split holds, told of the bank itself. -/
theorem encodes_of_split {bankCount : Nat} {tables : List Bank}
    (h : split actions bankCount firstIndex = .ok tables) :
    ∀ bank ∈ tables, bank.number < bankCount ∧
      List.Forall₂ Entry.Encodes
        ((actions.filter (·.bank = bank.number)).zipIdx (if bank.number = 0 then firstIndex else 0))
        bank.entries.toList := by
  obtain ⟨hlength, hbanks⟩ := split_eq_ok h
  intro bank hbank
  obtain ⟨number, hnumber, rfl⟩ := List.getElem_of_mem hbank
  obtain ⟨entries, hget, hentries⟩ := hbanks number (hlength ▸ hnumber)
  rw [List.getElem?_eq_getElem hnumber, Option.some.injEq] at hget
  rw [hget]
  exact ⟨hlength ▸ hnumber, hentries⟩

/-- The entries of a bank are numbered without gaps. -/
theorem map_index_eq {start : Nat} {entries : List Entry}
    (h : List.Forall₂ Entry.Encodes (actions.zipIdx start) entries) :
    entries.map Entry.index = List.range' start actions.length := by
  induction actions generalizing start entries with
  | nil =>
    cases h
    rfl
  | cons action rest ih =>
    rw [List.zipIdx_cons] at h
    cases h with
    | cons hfirst hrest =>
      rw [List.map_cons, ih hrest, (Entry.encode_eq_ok_iff.mp hfirst).2]
      rfl

/-- What can be told of each bank from its number is told of all banks in order. -/
theorem map_split_eq {β : Type} {bankCount : Nat} {tables : List Bank}
    (h : split actions bankCount firstIndex = .ok tables) {f : Bank → β} {g : Nat → β}
    (hbank : ∀ number < bankCount, ∀ start entries,
      List.Forall₂ Entry.Encodes ((actions.filter (·.bank = number)).zipIdx start) entries →
        f ⟨number, entries.toArray⟩ = g number) :
    tables.map f = (List.range bankCount).map g := by
  obtain ⟨hlength, hbanks⟩ := split_eq_ok h
  apply List.ext_getElem (by simp [hlength])
  intro number hnumber _
  rw [List.length_map] at hnumber
  obtain ⟨entries, hget, hentries⟩ := hbanks number (hlength ▸ hnumber)
  rw [List.getElem?_eq_getElem hnumber, Option.some.injEq] at hget
  rw [List.getElem_map, List.getElem_map, List.getElem_range, hget]
  exact hbank number (hlength ▸ hnumber) _ entries hentries

/-- The banks of a split are numbered in order. -/
theorem map_number_eq {bankCount : Nat} {tables : List Bank}
    (h : split actions bankCount firstIndex = .ok tables) :
    tables.map Bank.number = List.range bankCount := by
  rw [map_split_eq h (g := id) fun _ _ _ _ _ ↦ rfl, List.map_id]

end Bank

end InfoScreen
