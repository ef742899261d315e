import InfoScreen.Proofs.SingleBuffered

/-!
# Requests and their nibbles

Here a list of actions grows at its end, one slot after the other.  A request waits until its low
nibble has been shown, a nibble is sourced by the request that waits, and what has been said of a
request and its nibbles stays true when a later action follows.
-/

namespace InfoScreen

/-- `read` requests the byte of which `action` shows a nibble.  It is the latest request before the
action, in the same bank and long enough ago, and the byte has not been retired before. -/
structure Sources (actions : List Action) (nibble : Nibble) (read action : Action) : Prop where
  mem : read ∈ actions
  isSome : read.read.isSome
  bank_eq : read.bank = action.bank
  old : read.slot + nibble.latency ≤ action.slot
  latest : ∀ other ∈ actions, other.read.isSome → other.slot < action.slot →
    other.slot ≤ read.slot
  unretired : ∀ low ∈ actions, low.paint = some (.fetched .low read.slot) → action.slot ≤ low.slot

/-- `low` alone retires the byte that is requested in a slot, at the latest where the next byte is
requested. -/
structure Retires (actions : List Action) (readSlot : Nat) (low : Action) : Prop where
  mem : low ∈ actions
  unique : ∀ action ∈ actions, action.paint = some (.fetched .low readSlot) ↔ action = low
  le_next : ∀ next ∈ actions, next.read.isSome → readSlot < next.slot → low.slot ≤ next.slot

/-- `read` is the latest request, made in the bank `bank`, and its byte has not been retired. -/
structure Pending (actions : List Action) (bank : Nat) (read : Action) : Prop where
  mem : read ∈ actions
  isSome : read.read.isSome
  bank_eq : read.bank = bank
  latest : ∀ other ∈ actions, other.read.isSome → other.slot ≤ read.slot
  unretired : ∀ action ∈ actions, action.paint ≠ some (.fetched .low read.slot)

/-- Every byte that is requested before the slot `start` is also retired before it. -/
def Sealed (actions : List Action) (start : Nat) : Prop :=
  ∀ read ∈ actions, read.read.isSome → read.slot < start →
    ∃ low ∈ actions, low.paint = some (.fetched .low read.slot) ∧ low.slot < start

section Append

variable {past : List Action} {bank : Nat} {nibble : Nibble} {read action shown low : Action}
  {readSlot start : Nat}

theorem Sources.append (h : Sources past nibble read shown) (hshown : shown.slot < action.slot) :
    Sources (past ++ [action]) nibble read shown where
  mem := List.mem_append_left _ h.mem
  isSome := h.isSome
  bank_eq := h.bank_eq
  old := h.old
  latest := by
    intro other hother hsome hlt
    rcases List.mem_append.mp hother with hpast | hnew
    · exact h.latest other hpast hsome hlt
    · obtain rfl := List.mem_singleton.mp hnew
      exact absurd hlt (Nat.lt_asymm hshown)
  unretired := by
    intro low hlow hpaint
    rcases List.mem_append.mp hlow with hpast | hnew
    · exact h.unretired low hpast hpaint
    · obtain rfl := List.mem_singleton.mp hnew
      exact Nat.le_of_lt hshown

theorem Retires.append (h : Retires past readSlot low)
    (hlast : ∀ other ∈ past, other.slot < action.slot)
    (hpaint : action.paint ≠ some (.fetched .low readSlot)) :
    Retires (past ++ [action]) readSlot low where
  mem := List.mem_append_left _ h.mem
  unique := by
    intro other hother
    rcases List.mem_append.mp hother with hpast | hnew
    · exact h.unique other hpast
    · obtain rfl := List.mem_singleton.mp hnew
      refine ⟨fun hretires ↦ absurd hretires hpaint, ?_⟩
      rintro rfl
      exact absurd (hlast other h.mem) (Nat.lt_irrefl _)
  le_next := by
    intro next hnext hsome hlt
    rcases List.mem_append.mp hnext with hpast | hnew
    · exact h.le_next next hpast hsome hlt
    · obtain rfl := List.mem_singleton.mp hnew
      exact Nat.le_of_lt (hlast low h.mem)

/-- The byte that is waiting can be shown. -/
theorem Pending.sources (h : Pending past bank read) (hbank : action.bank = bank)
    (hold : read.slot + nibble.latency ≤ action.slot) :
    Sources (past ++ [action]) nibble read action where
  mem := List.mem_append_left _ h.mem
  isSome := h.isSome
  bank_eq := h.bank_eq.trans hbank.symm
  old := hold
  latest := by
    intro other hother hsome hlt
    rcases List.mem_append.mp hother with hpast | hnew
    · exact h.latest other hpast hsome
    · obtain rfl := List.mem_singleton.mp hnew
      exact absurd hlt (Nat.lt_irrefl _)
  unretired := by
    intro low hlow hpaint
    rcases List.mem_append.mp hlow with hpast | hnew
    · exact absurd hpaint (h.unretired low hpast)
    · obtain rfl := List.mem_singleton.mp hnew
      exact Nat.le_refl _

/-- The byte that is waiting is retired by its low nibble. -/
theorem Pending.retires (h : Pending past bank read)
    (hpaint : action.paint = some (.fetched .low read.slot)) :
    Retires (past ++ [action]) read.slot action where
  mem := List.mem_append_right _ List.mem_cons_self
  unique := by
    intro other hother
    constructor
    · intro hretires
      rcases List.mem_append.mp hother with hpast | hnew
      · exact absurd hretires (h.unretired other hpast)
      · exact List.mem_singleton.mp hnew
    · rintro rfl
      exact hpaint
  le_next := by
    intro next hnext hsome hlt
    rcases List.mem_append.mp hnext with hpast | hnew
    · exact absurd hlt (Nat.not_lt_of_le (h.latest next hpast hsome))
    · obtain rfl := List.mem_singleton.mp hnew
      exact Nat.le_refl _

theorem Pending.append (h : Pending past bank read) (hread : action.read = none)
    (hpaint : action.paint ≠ some (.fetched .low read.slot)) :
    Pending (past ++ [action]) bank read where
  mem := List.mem_append_left _ h.mem
  isSome := h.isSome
  bank_eq := h.bank_eq
  latest := by
    intro other hother hsome
    rcases List.mem_append.mp hother with hpast | hnew
    · exact h.latest other hpast hsome
    · obtain rfl := List.mem_singleton.mp hnew
      rw [hread] at hsome
      cases hsome
  unretired := by
    intro other hother
    rcases List.mem_append.mp hother with hpast | hnew
    · exact h.unretired other hpast
    · obtain rfl := List.mem_singleton.mp hnew
      exact hpaint

theorem Sealed.append {following : List Action} (h : Sealed past start)
    (hstart : ∀ action ∈ following, start ≤ action.slot) : Sealed (past ++ following) start := by
  intro read hread hsome hlt
  rcases List.mem_append.mp hread with hpast | hnew
  · obtain ⟨low, hlow, hretires⟩ := h read hpast hsome hlt
    exact ⟨low, List.mem_append_left _ hlow, hretires⟩
  · exact absurd hlt (Nat.not_lt_of_le (hstart read hnew))

end Append

end InfoScreen
