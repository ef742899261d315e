import InfoScreen.Pipeline
import InfoScreen.Proofs.Outcome

/-!
# Steps of the memory port

Each step of the protocol is described by when it is accepted and what it answers then.
-/

namespace InfoScreen

namespace Pipeline

variable {port next : Pipeline} {slot : Nat} {offset : UInt32}

@[simp]
theorem violate_ne_ok {α : Type} (slot : Nat) (violation : Violation) (a : α) :
    violate slot violation ≠ .ok a := Outcome.refuse_ne_ok _ _

theorem issue_eq_ok_iff :
    port.issue slot offset = (.ok (), next) ↔
      port.inFlight = none ∧ next = ⟨some ⟨slot, offset⟩⟩ := by
  unfold issue
  cases hflight : port.inFlight with
  | none =>
    rw [Prod.mk.injEq, Outcome.pure_eq_ok]
    exact ⟨fun h ↦ ⟨rfl, h.2.symm⟩, fun h ↦ ⟨rfl, h.2.symm⟩⟩
  | some flight => simp

/-- A request that is refused leaves the port as it was. -/
theorem issue_of_error {failure : Failure}
    (h : port.issue slot offset = (.error failure, next)) : next = port := by
  unfold issue at h
  cases hflight : port.inFlight with
  | none =>
    rw [hflight] at h
    cases congrArg Prod.fst h
  | some flight =>
    rw [hflight] at h
    exact (congrArg Prod.snd h).symm

/-- A byte can be shown if it is the one in flight, from `latency` slots after its request on. -/
theorem fetched_eq_ok_iff {latency : Nat} {flight : Flight} :
    port.fetched slot offset latency = .ok flight ↔
      port.inFlight = some flight ∧ flight.offset = offset ∧
        flight.slot + latency < UInt64.size ∧ flight.slot + latency ≤ slot := by
  unfold fetched
  cases hflight : port.inFlight with
  | none => simp
  | some pending =>
    dsimp only
    rw [Outcome.guard_eq_ok (violate_ne_ok _ _ _), Outcome.guard_halt_eq_ok,
      Outcome.guard_eq_ok (violate_ne_ok _ _ _), Outcome.pure_eq_ok, Option.some.injEq]
    constructor
    · rintro ⟨hoffset, hword, hslot, rfl⟩
      exact ⟨rfl, Decidable.not_not.mp hoffset, Nat.lt_of_not_le hword, Nat.le_of_not_lt hslot⟩
    · rintro ⟨rfl, hoffset, hword, hslot⟩
      exact ⟨not_not_intro hoffset, Nat.not_le_of_lt hword, Nat.not_lt_of_le hslot, rfl⟩

theorem high_eq_ok_iff {readSlot : Nat} :
    port.high slot offset = .ok readSlot ↔
      port.inFlight = some ⟨readSlot, offset⟩ ∧
        readSlot + highLatency < UInt64.size ∧ readSlot + highLatency ≤ slot := by
  rw [high, Outcome.map_eq_ok]
  constructor
  · rintro ⟨flight, hfetched, rfl⟩
    obtain ⟨hflight, rfl, hword, hslot⟩ := fetched_eq_ok_iff.mp hfetched
    exact ⟨hflight, hword, hslot⟩
  · rintro ⟨hflight, hword, hslot⟩
    exact ⟨⟨readSlot, offset⟩, fetched_eq_ok_iff.mpr ⟨hflight, rfl, hword, hslot⟩, rfl⟩

theorem low_fst (port : Pipeline) (slot : Nat) (offset : UInt32) :
    (port.low slot offset).1 = (port.fetched slot offset lowLatency).map Flight.slot := by
  unfold low
  cases port.fetched slot offset lowLatency <;> rfl

theorem low_eq_ok_iff {readSlot : Nat} :
    port.low slot offset = (.ok readSlot, next) ↔
      port.inFlight = some ⟨readSlot, offset⟩ ∧
        readSlot + lowLatency < UInt64.size ∧ readSlot + lowLatency ≤ slot ∧ next = {} := by
  unfold low
  constructor
  · intro h
    split at h
    next => cases congrArg Prod.fst h
    next flight hfetched =>
      obtain ⟨rfl, rfl⟩ : flight.slot = readSlot ∧ _ = next := by simpa using h
      obtain ⟨hflight, rfl, hword, hslot⟩ := fetched_eq_ok_iff.mp hfetched
      exact ⟨hflight, hword, hslot, rfl⟩
  · rintro ⟨hflight, hword, hslot, rfl⟩
    rw [fetched_eq_ok_iff.mpr ⟨hflight, rfl, hword, hslot⟩]
    rfl

/-- A low nibble that is refused leaves the port as it was. -/
theorem low_of_error {failure : Failure}
    (h : port.low slot offset = (.error failure, next)) : next = port := by
  unfold low at h
  split at h
  next => exact (congrArg Prod.snd h).symm
  next => cases congrArg Prod.fst h

theorem drain_eq_ok_iff : port.drain slot = .ok () ↔ port = {} := by
  obtain ⟨inFlight⟩ := port
  cases inFlight <;> simp [drain]

end Pipeline

end InfoScreen
