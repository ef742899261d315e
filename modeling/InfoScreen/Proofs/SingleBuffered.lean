import InfoScreen.Proofs.Traffic

/-!
# One byte at a time

The memory port has room for one byte.  A list of actions respects this if every shown nibble comes
from the latest request, which must be old enough and not yet retired, if every request is retired
within its bank, and if no request is made before the last one is retired.  The schedule of an
accepted configuration has this property, and it keeps it when captions are merged in: a caption
takes the whole byte off the memory port, and nothing else.
-/

namespace InfoScreen

/-- Slots from the request of a byte to the first slot that can show a nibble of it. -/
def Nibble.latency : Nibble → Nat
  | .high => highLatency
  | .low => lowLatency

/-- The byte that `read` requests is in flight after `slot`: it has been requested, and its low
nibble, which retires it, has not been shown. -/
structure InFlight (actions : List Action) (slot : Nat) (read : Action) : Prop where
  mem : read ∈ actions
  isSome : read.read.isSome
  requested : read.slot ≤ slot
  unretired : ∀ low ∈ actions, low.paint = some (.fetched .low read.slot) → slot < low.slot

/-- The protocol of the memory port, for actions in sequence order. -/
structure SingleBuffered (actions : List Action) : Prop where
  ordered : actions.Pairwise fun a b ↦ a.slot < b.slot
  banked : actions.Pairwise fun a b ↦ a.bank ≤ b.bank
  /-- A nibble is shown of the byte requested latest, in the same bank and long enough ago, and not
  after its low nibble. -/
  source : ∀ action ∈ actions, ∀ nibble readSlot,
    action.paint = some (.fetched nibble readSlot) → ∃ read ∈ actions,
      read.slot = readSlot ∧ read.read.isSome ∧ read.bank = action.bank ∧
      readSlot + nibble.latency ≤ action.slot ∧
      (∀ other ∈ actions, other.read.isSome → other.slot < action.slot → other.slot ≤ readSlot) ∧
      ∀ low ∈ actions, low.paint = some (.fetched .low readSlot) → action.slot ≤ low.slot
  /-- A requested byte is shown once, first its high and then its low nibble. -/
  consumed : ∀ read ∈ actions, read.read.isSome → ∃ high ∈ actions, ∃ low ∈ actions,
    high.slot < low.slot ∧
      (∀ action ∈ actions, action.paint = some (.fetched .high read.slot) ↔ action = high) ∧
      ∀ action ∈ actions, action.paint = some (.fetched .low read.slot) ↔ action = low
  /-- Where a byte is requested, no other byte is in flight. -/
  alone : ∀ read ∈ actions, read.read.isSome →
    ∀ other, InFlight actions read.slot other → other = read
  /-- After the last action of a bank no byte is in flight. -/
  drained : ∀ last ∈ actions,
    (∀ other ∈ actions, other.bank = last.bank → other.slot ≤ last.slot) →
      ∀ read, ¬InFlight actions last.slot read
  /-- At the end of the sequence no byte is in flight. -/
  ended : ∀ slot, (∀ action ∈ actions, action.slot ≤ slot) → ∀ read, ¬InFlight actions slot read
  /-- No byte is requested twice. -/
  increasing : actions.Pairwise fun a b ↦
    ∀ offset next, a.read = some offset → b.read = some next → offset < next

namespace Config.Traffic

variable {config : Config} {layout : Layout} {actions : List Action} {action other : Action}

/-- A byte is in flight between the slot of its request and that of its low nibble. -/
theorem slots_of_inFlight (h : config.Traffic actions) (hschedulable : config.Schedulable layout)
    {slot : Nat} {read : Action} (hflight : InFlight actions slot read) :
    ∃ i k, config.Visible i k ∧ read.slot = (config.requestCell i k).address ∧
      slot < (config.nibbleCell i k .low).address := by
  obtain ⟨i, k, hvisible, hslot, -⟩ := h.exists_visible_of_read hflight.mem hflight.isSome
  obtain ⟨low, hlow, hlowSlot⟩ := h.exists_nibble hvisible .low
  refine ⟨i, k, hvisible, hslot, ?_⟩
  rw [← hlowSlot]
  apply hflight.unretired low hlow
  rw [hslot]
  apply (h.fetched_iff hschedulable hvisible .low hlow).mpr
  exact hlowSlot

theorem source (h : config.Traffic actions) (hschedulable : config.Schedulable layout)
    (haction : action ∈ actions) {nibble : Nibble} {readSlot : Nat}
    (hpaint : action.paint = some (.fetched nibble readSlot)) :
    ∃ read ∈ actions, read.slot = readSlot ∧ read.read.isSome ∧ read.bank = action.bank ∧
      readSlot + nibble.latency ≤ action.slot ∧
      (∀ other ∈ actions, other.read.isSome → other.slot < action.slot → other.slot ≤ readSlot) ∧
      ∀ low ∈ actions, low.paint = some (.fetched .low readSlot) → action.slot ≤ low.slot := by
  obtain ⟨i, k, hvisible, hslot, rfl⟩ := (h.fetched _ _ _).mp ⟨action, haction, rfl, hpaint⟩
  obtain ⟨read, hread, hrequest, hoffset⟩ := h.exists_read hvisible
  have hk := hvisible.byte_lt
  have hhigh := hschedulable.requestCell_lt i hk
  have hlow := config.nibbleCell_low_eq i k
  have hle : action.slot ≤ (config.nibbleCell i k .low).address := by
    cases nibble <;> omega
  refine ⟨read, hread, hrequest, by simp [hoffset], ?_, ?_, ?_, ?_⟩
  · rw [h.bank_eq_of_slot hread (hschedulable.requestCell_col_lt i hk) hrequest,
      h.bank_eq_of_slot haction (hschedulable.nibbleCell_col_lt i hk nibble) hslot]
    rfl
  · cases nibble <;> simp only [Nibble.latency, highLatency, lowLatency] <;> omega
  · intro other hother hsome hlt
    obtain ⟨j, l, hvisible', hslot', -⟩ := h.exists_visible_of_read hother hsome
    rw [hslot']
    apply Nat.le_of_not_lt
    intro hlater
    have hoffset := (hschedulable.offset_lt_iff_requestCell_lt hk hvisible'.byte_lt).mpr hlater
    have hearly : action.slot ≤ other.slot := by
      calc
        action.slot ≤ (config.nibbleCell i k .low).address := hle
        _ ≤ (config.requestCell j l).address :=
          hschedulable.nibbleCell_le_requestCell hk hvisible'.byte_lt hoffset
        _ = other.slot := hslot'.symm
    exact Nat.not_lt_of_le hearly hlt
  · intro low hlow hretires
    rw [(h.fetched_iff hschedulable hvisible .low hlow).mp hretires]
    exact hle

theorem consumed (h : config.Traffic actions) (hschedulable : config.Schedulable layout)
    {read : Action} (hread : read ∈ actions) (hsome : read.read.isSome) :
    ∃ high ∈ actions, ∃ low ∈ actions, high.slot < low.slot ∧
      (∀ action ∈ actions, action.paint = some (.fetched .high read.slot) ↔ action = high) ∧
      ∀ action ∈ actions, action.paint = some (.fetched .low read.slot) ↔ action = low := by
  obtain ⟨i, k, hvisible, hslot, -⟩ := h.exists_visible_of_read hread hsome
  have honce : ∀ nibble, ∃ shown ∈ actions,
      shown.slot = (config.nibbleCell i k nibble).address ∧
      ∀ action ∈ actions, action.paint = some (.fetched nibble read.slot) ↔ action = shown := by
    intro nibble
    obtain ⟨shown, hshown, hshownSlot⟩ := h.exists_nibble hvisible nibble
    refine ⟨shown, hshown, hshownSlot, fun action haction ↦ ?_⟩
    rw [hslot, h.fetched_iff hschedulable hvisible nibble haction, ← hshownSlot]
    constructor
    · exact Action.eq_of_slot_eq h.ordered haction hshown
    · rintro rfl
      rfl
  obtain ⟨high, hhigh, hhighSlot, hhighOnly⟩ := honce .high
  obtain ⟨low, hlow, hlowSlot, hlowOnly⟩ := honce .low
  refine ⟨high, hhigh, low, hlow, ?_, hhighOnly, hlowOnly⟩
  rw [hhighSlot, hlowSlot]
  exact Nat.lt_succ_self _

theorem alone (h : config.Traffic actions) (hschedulable : config.Schedulable layout)
    {read : Action} (hread : read ∈ actions) (hsome : read.read.isSome)
    (hflight : InFlight actions read.slot other) : other = read := by
  obtain ⟨i, k, hvisible, hslot, -⟩ := h.exists_visible_of_read hread hsome
  obtain ⟨j, l, hvisible', hslot', hlow⟩ := h.slots_of_inFlight hschedulable hflight
  refine Action.eq_of_slot_eq h.ordered hflight.mem hread (Nat.le_antisymm hflight.requested ?_)
  apply Nat.le_of_not_lt
  intro hearlier
  rw [hslot, hslot'] at hearlier
  have hoffset := (hschedulable.offset_lt_iff_requestCell_lt hvisible'.byte_lt
    hvisible.byte_lt).mpr hearlier
  have hretired : (config.nibbleCell j l .low).address ≤ read.slot := by
    rw [hslot]
    exact hschedulable.nibbleCell_le_requestCell hvisible'.byte_lt hvisible.byte_lt hoffset
  exact Nat.not_lt_of_le hretired hlow

/-- The low nibble of a byte is in the bank of its request, so it is shown before the bank ends. -/
theorem drained (h : config.Traffic actions) (hschedulable : config.Schedulable layout)
    {last read : Action} (hlast : last ∈ actions)
    (hend : ∀ other ∈ actions, other.bank = last.bank → other.slot ≤ last.slot) :
    ¬InFlight actions last.slot read := by
  intro hflight
  obtain ⟨i, k, hvisible, hslot, hlt⟩ := h.slots_of_inFlight hschedulable hflight
  obtain ⟨low, hlow, hlowSlot⟩ := h.exists_nibble hvisible .low
  have hreadBank := h.bank_eq_of_slot hflight.mem
    (hschedulable.requestCell_col_lt i hvisible.byte_lt) hslot
  have hlowBank := h.bank_eq_of_slot hlow
    (hschedulable.nibbleCell_col_lt i hvisible.byte_lt .low) hlowSlot
  have hsame : low.bank = last.bank := by
    refine Nat.le_antisymm ?_ (h.bank_le_of_slot_le hlast hlow (by omega))
    calc
      low.bank = read.bank := hlowBank.trans hreadBank.symm
      _ ≤ last.bank := h.bank_le_of_slot_le hflight.mem hlast hflight.requested
  have hle := hend low hlow hsame
  omega

theorem increasing (h : config.Traffic actions) (hschedulable : config.Schedulable layout)
    (hexact : ∀ i k, config.Visible i k → config.offset i k < UInt32.size)
    (haction : action ∈ actions) (hother : other ∈ actions) (hlt : action.slot < other.slot)
    {offset next : UInt32} (hoffset : action.read = some offset) (hnext : other.read = some next) :
    offset < next := by
  obtain ⟨i, k, hvisible, hslot, rfl⟩ := (h.read _ _).mp ⟨action, haction, rfl, hoffset⟩
  obtain ⟨j, l, hvisible', hslot', rfl⟩ := (h.read _ _).mp ⟨other, hother, rfl, hnext⟩
  rw [hslot, hslot', ← hschedulable.offset_lt_iff_requestCell_lt hvisible.byte_lt
    hvisible'.byte_lt] at hlt
  rw [UInt32.lt_iff_toNat_lt, UInt32.toNat_ofNat_of_lt' (hexact i k hvisible),
    UInt32.toNat_ofNat_of_lt' (hexact j l hvisible')]
  exact hlt

/-- Actions with the memory traffic of a configuration keep to the protocol. -/
theorem singleBuffered (h : config.Traffic actions) (hschedulable : config.Schedulable layout)
    (hexact : ∀ i k, config.Visible i k → config.offset i k < UInt32.size) :
    SingleBuffered actions where
  ordered := h.ordered
  banked := h.banks_ascending
  source := fun _ haction _ _ hpaint ↦ h.source hschedulable haction hpaint
  consumed := fun _ hread hsome ↦ h.consumed hschedulable hread hsome
  alone := fun _ hread hsome _ hflight ↦ h.alone hschedulable hread hsome hflight
  drained := fun _ hlast hend _ ↦ h.drained hschedulable hlast hend
  ended := by
    intro slot hend read hflight
    obtain ⟨i, k, hvisible, -, hlt⟩ := h.slots_of_inFlight hschedulable hflight
    obtain ⟨low, hlow, hlowSlot⟩ := h.exists_nibble hvisible .low
    have hle := hend low hlow
    omega
  increasing := h.ordered.imp_of_mem fun ha hb hlt _ _ hoffset hnext ↦
    h.increasing hschedulable hexact ha hb hlt hoffset hnext

end Config.Traffic

namespace Screen

variable {config : Config} {screen : Screen}

/-- The protocol of the memory port holds for every accepted configuration, before and after its
captions are merged in. -/
theorem singleBuffered_schedule_and_actions (h : ofConfig config = .ok screen) :
    (∃ schedule, screen.schedule = .ok schedule ∧ SingleBuffered schedule.actions) ∧
      ∃ actions, screen.actions = .ok actions ∧ SingleBuffered actions := by
  have hschedulable := schedulable h
  have hexact : ∀ i k, config.Visible i k → config.offset i k < UInt32.size :=
    fun i k hvisible ↦ offset_lt h hvisible.row_lt hvisible.byte_lt
  constructor
  · refine ⟨_, schedule_eq h, ?_⟩
    exact hschedulable.traffic_scheduled.singleBuffered hschedulable hexact
  · refine ⟨_, actions_eq h, ?_⟩
    exact hschedulable.traffic_merged.singleBuffered hschedulable hexact

theorem singleBuffered_schedule_and_actions_sample :
    ofConfig .sample = .ok sample ∧
      (∃ schedule, sample.schedule = .ok schedule ∧ SingleBuffered schedule.actions) ∧
      ∃ actions, sample.actions = .ok actions ∧ SingleBuffered actions :=
  ⟨ofConfig_sample, singleBuffered_schedule_and_actions ofConfig_sample⟩

end Screen

end InfoScreen
