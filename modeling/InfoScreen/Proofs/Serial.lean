import InfoScreen.Proofs.Displays
import InfoScreen.Proofs.Requests

/-!
# What the port's own checks guarantee

The scheduler can be run on a configuration that nobody has checked.  Its columns may be repeated
or out of order, its labels may sit on requests, and captions may hide any part of a row; only the
memory port watches over such a run.  That is enough: if the port refuses no step, bytes are
requested, shown and released strictly one after the other, and none crosses into another bank.
The proof follows the actions slot by slot and ties the byte in the port to the actions so far.
-/

namespace InfoScreen

/-- The actions of a schedule use the memory port for one byte at a time.  Every request is retired,
so none is left at the end. -/
structure Schedule.Serial (schedule : Schedule) : Prop where
  ordered : schedule.actions.Pairwise fun a b ↦ a.slot < b.slot
  sourced : ∀ action ∈ schedule.actions, ∀ nibble readSlot,
    action.paint = some (.fetched nibble readSlot) →
      ∃ read, read.slot = readSlot ∧ Sources schedule.actions nibble read action
  retired : ∀ read ∈ schedule.actions, read.read.isSome →
    ∃ low, Retires schedule.actions read.slot low
  sealed : ∀ start ∈ schedule.bankStarts, Sealed schedule.actions start

/-! ## What an accepted action does to the port -/

/-- A nibble is shown of the byte in flight, and the low nibble releases the port. -/
inductive Pipeline.Painted (slot : Nat) (port : Pipeline) : Option Paint → Pipeline → Prop
  | other {paint : Option Paint} (h : ∀ nibble readSlot, paint ≠ some (.fetched nibble readSlot)) :
      Painted slot port paint port
  | high {flight : Flight} (hflight : port.inFlight = some flight)
      (hold : flight.slot + highLatency ≤ slot) :
      Painted slot port (some (.fetched .high flight.slot)) port
  | low {flight : Flight} (hflight : port.inFlight = some flight)
      (hold : flight.slot + lowLatency ≤ slot) :
      Painted slot port (some (.fetched .low flight.slot)) {}

inductive Pipeline.Requested (slot : Nat) : Pipeline → Option UInt32 → Pipeline → Prop
  | nothing (port : Pipeline) : Requested slot port none port
  | byte (offset : UInt32) : Requested slot {} (some offset) ⟨some ⟨slot, offset⟩⟩

section

variable {slot : Nat} {port released next : Pipeline} {paint : Option Paint} {flight : Flight}

/-- A byte leaves the port only by its low nibble. -/
theorem Pipeline.Painted.cases (h : Painted slot port paint released)
    (hflight : port.inFlight = some flight) :
    paint = some (.fetched .low flight.slot) ∨ released = port := by
  cases h with
  | other _ => exact .inr rfl
  | high _ _ => exact .inr rfl
  | low hflight' _ =>
    obtain rfl := Option.some.inj (hflight.symm.trans hflight')
    exact .inl rfl

/-- A byte that is still in the port has not shown its low nibble. -/
theorem Pipeline.Painted.kept (h : Painted slot port paint released)
    (hflight : released.inFlight = some flight) :
    port.inFlight = some flight ∧ ∀ readSlot, paint ≠ some (.fetched .low readSlot) := by
  cases h with
  | other hother => exact ⟨hflight, hother .low⟩
  | high _ _ => exact ⟨hflight, by simp⟩
  | low _ _ => cases hflight

theorem Pipeline.Requested.cases {read : Option UInt32} (h : Requested slot port read next) :
    read = none ∧ next = port ∨
      read.isSome ∧ port = {} ∧ ∃ offset, next.inFlight = some ⟨slot, offset⟩ := by
  cases h with
  | nothing => exact .inl ⟨rfl, rfl⟩
  | byte offset => exact .inr ⟨rfl, rfl, offset, rfl⟩

end

/-- An action moves the port from one state to another: it shows its nibble first. -/
def Action.Drives (action : Action) (port next : Pipeline) : Prop :=
  ∃ released, Pipeline.Painted action.slot port action.paint released ∧
    Pipeline.Requested action.slot released action.read next

namespace RowView

variable {view : RowView} {cursor next : Cursor} {slot col k : Nat}

theorem requestByte_requested {read : Option UInt32}
    (h : view.requestByte cursor slot k = .ok (read, next)) :
    Pipeline.Requested slot cursor.port read next.port := by
  rcases requestByte_cases h with ⟨-, rfl, rfl⟩ | ⟨-, hport, offset, rfl, -, rfl⟩
  · exact .nothing _
  · rw [hport]
    exact .byte _

theorem requestNext_requested {read : Option UInt32} {following : Option Nat}
    (h : view.requestNext cursor slot following = .ok (read, next)) :
    Pipeline.Requested slot cursor.port read next.port := by
  cases following with
  | none =>
    obtain ⟨rfl, rfl⟩ := Outcome.pure_pair_eq_ok.mp h
    exact .nothing _
  | some n => exact requestByte_requested h

theorem passByte_painted {paint : Option Paint}
    (h : view.passByte cursor slot k = .ok (paint, next)) :
    Pipeline.Painted slot cursor.port paint next.port := by
  rcases passByte_cases h with ⟨-, rfl, rfl⟩ | ⟨-, readSlot, rfl, hflight, hold, rfl⟩
  · exact .other (by simp)
  · exact .low hflight hold

/-- Whatever its role, a column that is not refused drives the port as it should. -/
theorem slotAction_drives {role : Role} {action : Action}
    (h : view.slotAction cursor col role = .ok (action, next)) :
    action.Drives cursor.port next.port ∧ action.slot = (⟨view.row, col⟩ : Cell).address ∧
      action.bank = view.bank := by
  cases role with
  | idle =>
    obtain ⟨rfl, rfl⟩ := Outcome.pure_pair_eq_ok.mp h
    exact ⟨⟨_, .other (by simp [Action.idle]), .nothing _⟩, rfl, rfl⟩
  | label nibble =>
    dsimp only [slotAction] at h
    split at h
    · obtain ⟨rfl, rfl⟩ := Outcome.pure_pair_eq_ok.mp h
      exact ⟨⟨_, .other (by simp [Action.idle]), .nothing _⟩, rfl, rfl⟩
    · obtain ⟨rfl, rfl⟩ := Outcome.pure_pair_eq_ok.mp h
      exact ⟨⟨_, .other (by simp), .nothing _⟩, rfl, rfl⟩
  | read =>
    obtain ⟨⟨read, requested⟩, hrequest, h⟩ := Outcome.bind_eq_ok.mp h
    obtain ⟨rfl, rfl⟩ := Outcome.pure_pair_eq_ok.mp h
    exact ⟨⟨_, .other (by simp [Action.idle]), requestByte_requested hrequest⟩, rfl, rfl⟩
  | high k =>
    dsimp only [slotAction] at h
    split at h
    · obtain ⟨rfl, rfl⟩ := Outcome.pure_pair_eq_ok.mp h
      exact ⟨⟨_, .other (by simp [Action.idle]), .nothing _⟩, rfl, rfl⟩
    · obtain ⟨readSlot, hhigh, h⟩ := Outcome.bind_eq_ok.mp h
      obtain ⟨rfl, rfl⟩ := Outcome.pure_pair_eq_ok.mp h
      obtain ⟨hflight, -, hold⟩ := Pipeline.high_eq_ok_iff.mp hhigh
      exact ⟨⟨_, .high hflight hold, .nothing _⟩, rfl, rfl⟩
  | low k following =>
    obtain ⟨paint, passed, read, hpass, hrequest, rfl⟩ := slotAction_low_eq_ok h
    exact ⟨⟨_, passByte_painted hpass, requestNext_requested hrequest⟩, rfl, rfl⟩

end RowView

/-! ## Following the schedule -/

/-- What is known in front of a slot of some bank, after the actions `past`: every byte requested
so far has been retired or is in the port. -/
structure Followed (past : List Action) (port : Pipeline) (bank slot : Nat) : Prop where
  ordered : past.Pairwise fun a b ↦ a.slot < b.slot
  before : ∀ action ∈ past, action.slot < slot
  sourced : ∀ action ∈ past, ∀ nibble readSlot, action.paint = some (.fetched nibble readSlot) →
    ∃ read, read.slot = readSlot ∧ Sources past nibble read action
  settled : ∀ read ∈ past, read.read.isSome →
    (∃ low, Retires past read.slot low) ∨
      ∃ flight, port.inFlight = some flight ∧ flight.slot = read.slot
  pending : ∀ flight, port.inFlight = some flight →
    ∃ read, read.slot = flight.slot ∧ Pending past bank read

namespace Followed

variable {past : List Action} {port next : Pipeline} {bank slot : Nat} {action : Action}

theorem start (bank slot : Nat) : Followed [] {} bank slot where
  ordered := .nil
  before := by simp
  sourced := by simp
  settled := by simp
  pending := by simp

/-- With an empty port all requests have been retired. -/
theorem retired (h : Followed past {} bank slot) {read : Action} (hread : read ∈ past)
    (hsome : read.read.isSome) : ∃ low, Retires past read.slot low := by
  rcases h.settled read hread hsome with hretired | ⟨flight, hflight, -⟩
  · exact hretired
  · cases hflight

/-- With an empty port a new bank may begin. -/
theorem change_bank (h : Followed past {} bank slot) (other : Nat) :
    Followed past {} other slot where
  ordered := h.ordered
  before := h.before
  sourced := h.sourced
  settled := h.settled
  pending := by simp

theorem sealed (h : Followed past {} bank slot) : Sealed past slot := by
  intro read hread hsome _
  obtain ⟨low, hretires⟩ := h.retired hread hsome
  refine ⟨low, hretires.mem, ?_, h.before low hretires.mem⟩
  apply (hretires.unique low hretires.mem).mpr
  rfl

/-- A shown nibble is one of the byte that is waiting. -/
theorem pending_of_painted (h : Followed past port bank slot) {released : Pipeline}
    (hpainted : Pipeline.Painted action.slot port action.paint released) {nibble : Nibble}
    {readSlot : Nat} (hpaint : action.paint = some (.fetched nibble readSlot)) :
    ∃ read, read.slot = readSlot ∧ Pending past bank read ∧
      readSlot + nibble.latency ≤ action.slot := by
  rw [hpaint] at hpainted
  cases hpainted with
  | other hother => exact absurd rfl (hother nibble readSlot)
  | high hflight hold =>
    obtain ⟨read, hslot, hpending⟩ := h.pending _ hflight
    exact ⟨read, hslot, hpending, hold⟩
  | low hflight hold =>
    obtain ⟨read, hslot, hpending⟩ := h.pending _ hflight
    exact ⟨read, hslot, hpending, hold⟩

/-- The nibbles that are shown so far, and the one that is shown now, are sourced. -/
theorem sourced_step (h : Followed past port bank action.slot) (hbank : action.bank = bank)
    (hdrives : action.Drives port next) :
    ∀ shown ∈ past ++ [action], ∀ nibble readSlot,
      shown.paint = some (.fetched nibble readSlot) →
        ∃ read, read.slot = readSlot ∧ Sources (past ++ [action]) nibble read shown := by
  obtain ⟨released, hpainted, -⟩ := hdrives
  intro shown hshown nibble readSlot hpaint
  rcases List.mem_append.mp hshown with hpast | hnew
  · obtain ⟨read, hslot, hsources⟩ := h.sourced shown hpast nibble readSlot hpaint
    exact ⟨read, hslot, hsources.append (h.before shown hpast)⟩
  · obtain rfl := List.mem_singleton.mp hnew
    obtain ⟨read, rfl, hpending, hold⟩ := h.pending_of_painted hpainted hpaint
    exact ⟨read, rfl, hpending.sources hbank hold⟩

/-- Every request stays accounted for. -/
theorem settled_step (h : Followed past port bank action.slot) (hdrives : action.Drives port next) :
    ∀ read ∈ past ++ [action], read.read.isSome →
      (∃ low, Retires (past ++ [action]) read.slot low) ∨
        ∃ flight, next.inFlight = some flight ∧ flight.slot = read.slot := by
  obtain ⟨released, hpainted, hrequested⟩ := hdrives
  intro read hread hsome
  rcases List.mem_append.mp hread with hpast | hnew
  · rcases h.settled read hpast hsome with ⟨low, hretires⟩ | ⟨flight, hflight, hslot⟩
    · refine .inl ⟨low, hretires.append h.before fun hpaint ↦ ?_⟩
      -- a byte that has been retired is not waiting
      obtain ⟨waiting, hwaiting, hpending, -⟩ := h.pending_of_painted hpainted hpaint
      apply hpending.unretired low hretires.mem
      rw [hwaiting]
      exact (hretires.unique low hretires.mem).mpr rfl
    · rcases hpainted.cases hflight with hpaint | rfl
      · obtain ⟨waiting, hwaiting, hpending⟩ := h.pending flight hflight
        rw [← hwaiting] at hpaint
        rw [← hslot, ← hwaiting]
        exact .inl ⟨action, hpending.retires hpaint⟩
      · rcases hrequested.cases with ⟨-, rfl⟩ | ⟨-, rfl, -⟩
        · exact .inr ⟨flight, hflight, hslot⟩
        · cases hflight
  · obtain rfl := List.mem_singleton.mp hnew
    rcases hrequested.cases with ⟨hnone, -⟩ | ⟨-, -, offset, hflight⟩
    · rw [hnone] at hsome
      cases hsome
    · exact .inr ⟨_, hflight, rfl⟩

/-- The byte in the port is that of the latest request. -/
theorem pending_step (h : Followed past port bank action.slot) (hbank : action.bank = bank)
    (hdrives : action.Drives port next) :
    ∀ flight, next.inFlight = some flight →
      ∃ read, read.slot = flight.slot ∧ Pending (past ++ [action]) bank read := by
  have hsourced := h.sourced_step hbank hdrives
  obtain ⟨released, hpainted, hrequested⟩ := hdrives
  intro flight hflight
  rcases hrequested.cases with ⟨hnone, rfl⟩ | ⟨hsome, -, offset, hnext⟩
  · obtain ⟨hflight, hpaint⟩ := hpainted.kept hflight
    obtain ⟨read, hslot, hpending⟩ := h.pending flight hflight
    exact ⟨read, hslot, hpending.append hnone (hpaint read.slot)⟩
  · obtain rfl := Option.some.inj (hflight.symm.trans hnext)
    have hlast : ∀ other ∈ past ++ [action], other.slot ≤ action.slot := by
      intro other hother
      rcases List.mem_append.mp hother with hpast | hnew
      · exact Nat.le_of_lt (h.before other hpast)
      · obtain rfl := List.mem_singleton.mp hnew
        exact Nat.le_refl _
    refine ⟨action, rfl, List.mem_append_right _ List.mem_cons_self, hsome, hbank,
      fun other hother _ ↦ hlast other hother, fun low hlow hpaint ↦ ?_⟩
    -- the byte that is requested now cannot be shown yet
    obtain ⟨read, hslot, hsources⟩ := hsourced low hlow .low action.slot hpaint
    have hold := hsources.old
    have hle := hlast low hlow
    simp only [Nibble.latency, lowLatency] at hold
    omega

/-- One slot: an action that drives the port as it should keeps everything known. -/
theorem step (h : Followed past port bank action.slot) (hbank : action.bank = bank)
    (hdrives : action.Drives port next) :
    Followed (past ++ [action]) next bank (action.slot + 1) where
  ordered := by
    refine List.pairwise_append.mpr ⟨h.ordered, List.pairwise_singleton _ _, ?_⟩
    intro earlier hearlier later hlater
    obtain rfl := List.mem_singleton.mp hlater
    exact h.before earlier hearlier
  before := by
    intro other hother
    rcases List.mem_append.mp hother with hpast | hnew
    · exact Nat.lt_succ_of_lt (h.before other hpast)
    · obtain rfl := List.mem_singleton.mp hnew
      exact Nat.lt_succ_self _
  sourced := h.sourced_step hbank hdrives
  settled := h.settled_step hdrives
  pending := h.pending_step hbank hdrives

/-- The rest of a row, if no step is refused. -/
theorem row {view : RowView} {roles : List Role} {cursor last : Cursor} {col : Nat}
    {actions : List Action}
    (h : Followed past cursor.port view.bank (⟨view.row, col⟩ : Cell).address)
    (hactions : view.slotActions cursor col roles = .ok (actions, last)) :
    Followed (past ++ actions) last.port view.bank
        (⟨view.row, col + roles.length⟩ : Cell).address ∧
      ∀ action ∈ actions, (⟨view.row, col⟩ : Cell).address ≤ action.slot := by
  induction roles generalizing past cursor col actions with
  | nil =>
    obtain ⟨rfl, rfl⟩ := Outcome.pure_pair_eq_ok.mp hactions
    rw [List.append_nil]
    exact ⟨h, by simp⟩
  | cons role roles ih =>
    obtain ⟨⟨action, moved⟩, haction, hactions⟩ := Outcome.bind_eq_ok.mp hactions
    obtain ⟨⟨rest, ended⟩, hrest, hactions⟩ := Outcome.bind_eq_ok.mp hactions
    obtain ⟨rfl, rfl⟩ := Outcome.pure_pair_eq_ok.mp hactions
    obtain ⟨hdrives, hslot, hbank⟩ := RowView.slotAction_drives haction
    rw [← hslot] at h ⊢
    have hnext : (⟨view.row, col + 1⟩ : Cell).address = action.slot + 1 := by
      rw [hslot]
      rfl
    obtain ⟨hfollowed, hlater⟩ := ih (hnext ▸ h.step hbank hdrives) hrest
    constructor
    · rw [List.append_cons, List.length_cons, Nat.add_comm roles.length, ← Nat.add_assoc]
      exact hfollowed
    · intro other hother
      rcases List.mem_cons.mp hother with rfl | hother
      · exact Nat.le_refl _
      · apply Nat.le_of_succ_le
        rw [Nat.succ_eq_add_one, ← hnext]
        exact hlater other hother

end Followed

namespace Schedule

structure Progress.Serial (progress : Progress) (slot : Nat) : Prop where
  followed : Followed progress.actions.toList progress.cursor.port progress.bank slot
  start_le : ∀ start ∈ progress.bankStarts, start ≤ slot
  sealed : ∀ start ∈ progress.bankStarts, Sealed progress.actions.toList start

namespace Progress.Serial

variable {progress next : Progress} {config : Config} {layout : Layout} {plan : List Role}
  {row slot : Nat}

theorem enterRow (h : progress.Serial slot) {rowsPerBank : Option UInt16} {index : Nat}
    (hnext : progress.enterRow rowsPerBank index slot = .ok next) : next.Serial slot := by
  rcases enterRow_cases hnext with rfl | ⟨-, hempty, rfl⟩
  · exact h
  · have hfollowed := h.followed
    rw [hempty] at hfollowed
    refine ⟨?_, fun start hstart ↦ ?_, fun start hstart ↦ ?_⟩
    · simp only [hempty]
      exact hfollowed.change_bank _
    · rcases Array.mem_push.mp hstart with hold | rfl
      · exact h.start_le start hold
      · exact Nat.le_refl _
    · rcases Array.mem_push.mp hstart with hold | rfl
      · exact h.sealed start hold
      · exact hfollowed.sealed

theorem addRow (h : progress.Serial (row * gridColumns)) (hplan : plan.length = gridColumns)
    {index : Nat} (hnext : Progress.addRow config layout plan progress (row, index) = .ok next) :
    next.Serial ((row + 1) * gridColumns) := by
  obtain ⟨entered, hentered, hnext⟩ := Outcome.bind_eq_ok.mp hnext
  obtain ⟨⟨actions, cursor⟩, hactions, hnext⟩ := Outcome.bind_eq_ok.mp hnext
  obtain rfl := Outcome.pure_eq_ok.mp hnext
  have hentered := h.enterRow hentered
  obtain ⟨hfollowed, hlater⟩ := hentered.followed.row hactions
  have hend : (⟨row, 0 + plan.length⟩ : Cell).address = (row + 1) * gridColumns := by
    rw [hplan, Nat.zero_add, Nat.succ_mul]
    rfl
  rw [hend] at hfollowed
  refine ⟨?_, fun start hstart ↦ ?_, fun start hstart ↦ ?_⟩
  · simpa using hfollowed
  · calc
      start ≤ row * gridColumns := hentered.start_le start hstart
      _ ≤ (row + 1) * gridColumns := Nat.mul_le_mul_right _ (Nat.le_succ row)
  · have hsealed := (hentered.sealed start hstart).append fun action haction ↦
      Nat.le_trans (hentered.start_le start hstart) (hlater action haction)
    simpa using hsealed

/-- All rows of the schedule, if no step is refused. -/
theorem foldlM_addRow (hplan : plan.length = gridColumns) (count : Nat) {index : Nat}
    (h : progress.Serial (row * gridColumns))
    (hnext : ((List.range' row count).zipIdx index).foldlM
      (Progress.addRow config layout plan) progress = .ok next) :
    next.Serial ((row + count) * gridColumns) := by
  induction count generalizing progress row index with
  | zero =>
    obtain rfl := Outcome.pure_eq_ok.mp hnext
    exact h
  | succ count ih =>
    rw [List.range'_succ, List.zipIdx_cons, List.foldlM_cons] at hnext
    obtain ⟨moved, hmoved, hrest⟩ := Outcome.bind_eq_ok.mp hnext
    rw [Nat.add_comm count, ← Nat.add_assoc]
    exact ih (h.addRow hplan hmoved) hrest

end Progress.Serial

variable {config : Config} {layout : Layout} {schedule : Schedule}

/-- A schedule that the memory port has not refused is serial, whatever the configuration and the
captions are. -/
theorem serial_of_build (h : build config layout = .ok schedule) : schedule.Serial := by
  obtain ⟨plan, hplan, h⟩ := Outcome.bind_eq_ok.mp h
  obtain ⟨-, -, rfl⟩ := (Pattern.rowPlan_eq_ok_iff plan).mp hplan
  obtain ⟨progress, hprogress, h⟩ := Outcome.bind_eq_ok.mp h
  obtain ⟨hdrain, h⟩ := Outcome.check_bind_eq_ok.mp h
  obtain rfl := Outcome.pure_eq_ok.mp h
  have hstart : Progress.Serial
      { bankStarts := #[config.firstRow.toNat * gridColumns]
        cursor := { address := config.startAddress.toNat } }
      (config.firstRow.toNat * gridColumns) :=
    ⟨.start _ _, by simp, by simp [Sealed]⟩
  have hserial := hstart.foldlM_addRow (by simp) _ hprogress
  have hfollowed := hserial.followed
  rw [Pipeline.drain_eq_ok_iff.mp hdrain] at hfollowed
  exact {
    ordered := hfollowed.ordered
    sourced := hfollowed.sourced
    retired := fun _ hread hsome ↦ hfollowed.retired hread hsome
    sealed := fun start hstart ↦ hserial.sealed start (Array.mem_toList_iff.mp hstart) }

end Schedule

namespace Config

/-- The two bytes of a row stand in the wrong order, but captions hide the one on the left. -/
def disordered : Config where
  rowCount := 2
  rowsPerBank := some 1
  pattern := { byteColumns := [6, 4] }
  captions := [⟨"A", 9, 4⟩, ⟨"B", 10, 5⟩]

end Config

/-- The pattern is refused by its check, and still the scheduler succeeds. -/
theorem Schedule.serial_of_build_disordered :
    Config.disordered.check ≠ .ok () ∧ ∃ layout schedule,
      Layout.ofCaptions Config.disordered.captions = .ok layout ∧
        Schedule.build .disordered layout = .ok schedule ∧ schedule.Serial := by
  refine ⟨by decide, ⟨Config.disordered.captions.flatMap Caption.cells⟩, ?_⟩
  have hbuilt : (Schedule.build .disordered
      ⟨Config.disordered.captions.flatMap Caption.cells⟩).toBool = true := by decide +kernel
  cases hbuild : Schedule.build .disordered
      ⟨Config.disordered.captions.flatMap Caption.cells⟩ with
  | error failure =>
    rw [hbuild] at hbuilt
    cases hbuilt
  | ok schedule => exact ⟨schedule, rfl, rfl, Schedule.serial_of_build hbuild⟩

end InfoScreen
