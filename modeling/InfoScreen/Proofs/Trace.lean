import InfoScreen.Proofs.Row

/-!
# Following a row of any pattern

Here the pattern need not be sound.  A row that is scheduled without a refused step is followed
column by column.  Only the next byte can show its low nibble, since no other byte can be in the
memory port; so the bytes stand in order.  If moreover no nibble and no label has lost its column
to a later claim, no two of them have met in one column, and the pattern is sound after all.
-/

namespace InfoScreen

def Role.Fits (role : Role) : Paint → Prop
  | .literal _ => False
  | .fetched nibble _ => ∃ k, role.shows? = some (k, nibble)
  | .cursorAddress nibble _ => role = .label nibble

theorem Role.shows?_high {role : Role} {k : Nat} (h : role.shows? = some (k, .high)) :
    role = .high k := by
  cases role <;> simp_all [shows?]

theorem Role.shows?_low {role : Role} {k : Nat} (h : role.shows? = some (k, .low)) :
    ∃ next, role = .low k next := by
  cases role <;> simp_all [shows?]

namespace RowView

variable {view : RowView} {pattern : Pattern} {withLabels : Bool}

def requestNext (view : RowView) (cursor : Cursor) (slot : Nat) (following : Option Nat) :
    Outcome (Option UInt32 × Cursor) :=
  match following with
  | none => pure (none, cursor)
  | some n => view.requestByte cursor slot n

/-- The two halves of a low nibble's slot. -/
theorem slotAction_low_eq_ok {cursor next : Cursor} {col k : Nat} {following : Option Nat}
    {action : Action} (h : view.slotAction cursor col (.low k following) = .ok (action, next)) :
    ∃ paint passed read,
      view.passByte cursor (⟨view.row, col⟩ : Cell).address k = .ok (paint, passed) ∧
        view.requestNext passed (⟨view.row, col⟩ : Cell).address following = .ok (read, next) ∧
        action = { Action.idle ⟨view.row, col⟩ view.bank with paint, read } := by
  obtain ⟨⟨paint, passed⟩, hpass, h⟩ := Outcome.bind_eq_ok.mp h
  cases following with
  | none =>
    obtain ⟨rfl, rfl⟩ := Outcome.pure_pair_eq_ok.mp h
    exact ⟨paint, passed, none, hpass, rfl, rfl⟩
  | some n =>
    obtain ⟨⟨read, cursor'⟩, hrequest, h⟩ := Outcome.bind_eq_ok.mp h
    obtain ⟨rfl, rfl⟩ := Outcome.pure_pair_eq_ok.mp h
    exact ⟨paint, passed, read, hpass, hrequest, rfl⟩

/-- Whatever the pattern, a column paints at its cell, and only what fits its role. -/
theorem slotAction_fits {cursor next : Cursor} {col : Nat} {role : Role} {action : Action}
    (h : view.slotAction cursor col role = .ok (action, next)) :
    action.cell = ⟨view.row, col⟩ ∧ ∀ paint, action.paint = some paint → role.Fits paint := by
  cases role with
  | idle =>
    obtain ⟨rfl, -⟩ := Outcome.pure_pair_eq_ok.mp h
    exact ⟨rfl, by simp [Action.idle]⟩
  | label nibble =>
    dsimp only [slotAction] at h
    split at h
    · obtain ⟨rfl, -⟩ := Outcome.pure_pair_eq_ok.mp h
      exact ⟨rfl, by simp [Action.idle]⟩
    · obtain ⟨rfl, -⟩ := Outcome.pure_pair_eq_ok.mp h
      refine ⟨rfl, ?_⟩
      rintro _ ⟨⟩
      rfl
  | read =>
    obtain ⟨⟨read, cursor'⟩, -, h⟩ := Outcome.bind_eq_ok.mp h
    obtain ⟨rfl, -⟩ := Outcome.pure_pair_eq_ok.mp h
    exact ⟨rfl, by simp [Action.idle]⟩
  | high k =>
    dsimp only [slotAction] at h
    split at h
    · obtain ⟨rfl, -⟩ := Outcome.pure_pair_eq_ok.mp h
      exact ⟨rfl, by simp [Action.idle]⟩
    · obtain ⟨readSlot, -, h⟩ := Outcome.bind_eq_ok.mp h
      obtain ⟨rfl, -⟩ := Outcome.pure_pair_eq_ok.mp h
      refine ⟨rfl, ?_⟩
      rintro _ ⟨⟩
      exact ⟨k, rfl⟩
  | low k following =>
    obtain ⟨paint, passed, read, hpass, -, rfl⟩ := slotAction_low_eq_ok h
    refine ⟨rfl, ?_⟩
    rintro shown hshown
    obtain rfl : paint = some shown := hshown
    rcases passByte_cases hpass with ⟨-, hnone, -⟩ | ⟨-, readSlot, hsome, -⟩
    · cases hnone
    · obtain rfl := Option.some.inj hsome
      exact ⟨k, rfl⟩

theorem slotActions_fits {roles : List Role} {cursor next : Cursor} {col : Nat}
    {actions : List Action} {plan : Nat → Role}
    (hroles : ∀ i, ∀ h : i < roles.length, roles[i] = plan (col + i))
    (h : view.slotActions cursor col roles = .ok (actions, next)) :
    ∀ action ∈ actions, ∀ paint, action.paint = some paint → (plan action.cell.col).Fits paint := by
  induction roles generalizing cursor next col actions with
  | nil =>
    obtain ⟨rfl, -⟩ := Outcome.pure_pair_eq_ok.mp h
    simp
  | cons role roles ih =>
    obtain ⟨⟨first, cursor'⟩, hfirst, h⟩ := Outcome.bind_eq_ok.mp h
    obtain ⟨⟨rest, last⟩, hrest, h⟩ := Outcome.bind_eq_ok.mp h
    obtain ⟨rfl, -⟩ := Outcome.pure_pair_eq_ok.mp h
    intro action haction
    rcases List.mem_cons.mp haction with rfl | haction
    · obtain ⟨hcell, hfits⟩ := slotAction_fits hfirst
      have hrole : role = plan col := hroles 0 (by simp)
      rw [hcell, ← hrole]
      exact hfits
    · refine ih (fun i hi ↦ ?_) hrest action haction
      have hnext := hroles (i + 1) (by simpa using hi)
      rw [List.getElem_cons_succ] at hnext
      rw [hnext, Nat.add_right_comm, Nat.add_assoc]

/-! ## Following a row without captions -/

theorem covered_of_no_captions (hview : view.captioned = []) (col : Nat) :
    view.covered col = false := by
  simp [covered, hview]

theorem masked_of_no_captions (hview : view.captioned = []) (k : Nat) : view.masked k = false := by
  unfold masked
  split
  · rfl
  · simp [covered_of_no_captions hview]

theorem requestByte_of_unmasked {cursor next : Cursor} {slot n : Nat} {read : Option UInt32}
    (hmasked : view.masked n = false) (h : view.requestByte cursor slot n = .ok (read, next)) :
    next = ⟨cursor.address, ⟨some ⟨slot, UInt32.ofNat cursor.address⟩⟩⟩ := by
  rcases requestByte_cases h with ⟨hmasked', -, -⟩ | ⟨-, -, offset, -, rfl, hnext⟩
  · rw [hmasked] at hmasked'
    cases hmasked'
  · exact hnext

theorem passByte_of_unmasked {cursor next : Cursor} {slot k : Nat} {paint : Option Paint}
    (hmasked : view.masked k = false) (h : view.passByte cursor slot k = .ok (paint, next)) :
    (∃ flight, cursor.port.inFlight = some flight ∧ flight.offset = view.offset k) ∧
      next = ⟨cursor.address + 1, {}⟩ := by
  rcases passByte_cases h with ⟨hmasked', -, -⟩ | ⟨-, readSlot, -, hflight, -, hnext⟩
  · rw [hmasked] at hmasked'
    cases hmasked'
  · exact ⟨⟨_, hflight, rfl⟩, hnext⟩

/-- Fewer bytes than there are offsets have different offsets, even after truncation. -/
theorem offset_inj {j k : Nat} (hj : j < UInt32.size) (hk : k < UInt32.size)
    (h : view.offset j = view.offset k) : j = k := by
  have hnat := congrArg UInt32.toNat h
  simp only [offset, UInt32.toNat_ofNat', UInt32.size] at hnat hj hk
  omega

/-- What is known in front of column `col` once `p` low nibbles have been shown without a refused
step, in a pattern that need not be sound. -/
structure Traced (view : RowView) (pattern : Pattern) (withLabels : Bool) (p col : Nat)
    (cursor : Cursor) : Prop where
  address : cursor.address = view.start + p
  inFlight : ∀ flight, cursor.port.inFlight = some flight → flight.offset = view.offset p
  /-- The low nibbles that lie behind are those of the first `p` bytes. -/
  behind : ∀ c < col, ∀ j next, roleOf (pattern.claims withLabels) c = .low j next → j < p
  shown : ∀ j < p, pattern.byteColumn j + 1 < col ∧
    roleOf (pattern.claims withLabels) (pattern.byteColumn j + 1) = .low j (pattern.nextByte j)
  increasing : ∀ j, j + 1 < p → pattern.byteColumn j < pattern.byteColumn (j + 1)
  /-- The first byte is requested before any byte is in the port. -/
  request_lt : cursor.port.inFlight.isSome → pattern.readColumn.toNat < col
  request_le : 0 < p → pattern.readColumn.toNat ≤ pattern.byteColumn 0
  request_role : cursor.port.inFlight.isSome ∨ 0 < p →
    roleOf (pattern.claims withLabels) pattern.readColumn.toNat = .read

namespace Traced

variable {p col : Nat} {cursor next : Cursor} {action : Action}

theorem start (view : RowView) (pattern : Pattern) (withLabels : Bool) :
    view.Traced pattern withLabels 0 0 ⟨view.start, {}⟩ where
  address := rfl
  inFlight := by simp
  behind := by simp
  shown := by simp
  increasing := by simp
  request_lt := by simp
  request_le := by simp
  request_role := by simp

/-- Only bytes of the pattern are shown. -/
theorem le_bytesPerRow (h : view.Traced pattern withLabels p col cursor) :
    p ≤ pattern.bytesPerRow := by
  rcases Nat.eq_zero_or_pos p with hp | hp
  · omega
  · have hrole := (h.shown (p - 1) (by omega)).2
    have hclaim := Pattern.mem_claims_low_iff.mp
      (Pattern.mem_claims_of_roleOf Role.noConfusion hrole)
    omega

/-- A column that moves no byte keeps what is known. -/
theorem stay (h : view.Traced pattern withLabels p col cursor)
    (hrole : ∀ j next, roleOf (pattern.claims withLabels) col ≠ .low j next) :
    view.Traced pattern withLabels p (col + 1) cursor where
  address := h.address
  inFlight := h.inFlight
  behind := by
    intro c hc j next hlow
    rcases Nat.lt_succ_iff_lt_or_eq.mp hc with hc | rfl
    · exact h.behind c hc j next hlow
    · exact absurd hlow (hrole j next)
  shown := fun j hj ↦ ⟨Nat.lt_succ_of_lt (h.shown j hj).1, (h.shown j hj).2⟩
  increasing := h.increasing
  request_lt := fun hsome ↦ Nat.lt_succ_of_lt (h.request_lt hsome)
  request_le := h.request_le
  request_role := h.request_role

/-- The first request. -/
theorem read (h : view.Traced pattern withLabels p col cursor) (slot : Nat)
    (hrole : roleOf (pattern.claims withLabels) col = .read) :
    view.Traced pattern withLabels p (col + 1)
      ⟨cursor.address, ⟨some ⟨slot, UInt32.ofNat cursor.address⟩⟩⟩ := by
  have hcol := Pattern.mem_claims_read_iff.mp (Pattern.mem_claims_of_roleOf Role.noConfusion hrole)
  have hno : ∀ j next, roleOf (pattern.claims withLabels) col ≠ .low j next := by
    rw [hrole]
    exact fun j next ↦ Role.noConfusion
  refine { h.stay hno with inFlight := ?_, request_lt := ?_, request_role := ?_ }
  · rintro flight ⟨⟩
    rw [h.address]
    rfl
  · intro _
    omega
  · intro _
    rw [← hcol, hrole]

/-- A low nibble is that of byte `p`, since no other byte can be in the port. -/
theorem low (h : view.Traced pattern withLabels p col cursor)
    (hbytes : pattern.bytesPerRow < UInt32.size) {j : Nat} {following : Option Nat}
    (hrole : roleOf (pattern.claims withLabels) col = .low j following) {flight : Flight}
    (hflight : cursor.port.inFlight = some flight) (hoffset : flight.offset = view.offset j)
    (hnext : next.address = cursor.address + 1)
    (hrequest : ∀ flight, next.port.inFlight = some flight →
      flight.offset = UInt32.ofNat next.address) :
    view.Traced pattern withLabels (p + 1) (col + 1) next := by
  obtain ⟨hj, hcol, hfollowing⟩ :=
    Pattern.mem_claims_low_iff.mp (Pattern.mem_claims_of_roleOf Role.noConfusion hrole)
  have hp := h.le_bytesPerRow
  obtain rfl : j = p := by
    rw [h.inFlight flight hflight] at hoffset
    exact (offset_inj (by omega) (by omega) hoffset).symm
  have hsome : cursor.port.inFlight.isSome := by rw [hflight, Option.isSome_some]
  have hread := h.request_lt hsome
  refine ⟨?_, ?_, ?_, ?_, ?_, ?_, ?_, ?_⟩
  · rw [hnext, h.address, Nat.add_assoc]
  · intro flight hflight
    rw [hrequest flight hflight, hnext, h.address]
    rfl
  · intro c hc i next hlow
    rcases Nat.lt_succ_iff_lt_or_eq.mp hc with hc | rfl
    · exact Nat.lt_succ_of_lt (h.behind c hc i next hlow)
    · rw [hrole] at hlow
      obtain ⟨rfl, -⟩ := Role.low.inj hlow
      exact Nat.lt_succ_self _
  · intro i hi
    rcases Nat.lt_succ_iff_lt_or_eq.mp hi with hi | rfl
    · exact ⟨Nat.lt_succ_of_lt (h.shown i hi).1, (h.shown i hi).2⟩
    · rw [← hcol, hrole, hfollowing]
      exact ⟨Nat.lt_succ_self _, rfl⟩
  · intro i hi
    rcases Nat.lt_succ_iff_lt_or_eq.mp hi with hi | hi
    · exact h.increasing i hi
    · have hbehind := (h.shown i (by omega)).1
      rw [hi]
      omega
  · intro _
    exact Nat.lt_succ_of_lt hread
  · intro _
    rcases Nat.eq_zero_or_pos j with rfl | hpos
    · omega
    · exact h.request_le hpos
  · intro _
    exact h.request_role (.inl hsome)

/-- One step of the row, if it is not refused. -/
theorem step (h : view.Traced pattern withLabels p col cursor)
    (hbytes : pattern.bytesPerRow < UInt32.size) (hview : view.captioned = [])
    (haction : view.slotAction cursor col (roleOf (pattern.claims withLabels) col) =
      .ok (action, next)) :
    ∃ p', view.Traced pattern withLabels p' (col + 1) next := by
  cases hrole : roleOf (pattern.claims withLabels) col with
  | idle =>
    rw [hrole] at haction
    obtain ⟨-, rfl⟩ := Outcome.pure_pair_eq_ok.mp haction
    exact ⟨p, h.stay (by simp [hrole])⟩
  | label nibble =>
    simp only [hrole, slotAction, covered_of_no_captions hview] at haction
    obtain ⟨-, rfl⟩ := Outcome.pure_pair_eq_ok.mp haction
    exact ⟨p, h.stay (by simp [hrole])⟩
  | high j =>
    simp only [hrole, slotAction, masked_of_no_captions hview] at haction
    obtain ⟨readSlot, -, haction⟩ := Outcome.bind_eq_ok.mp haction
    obtain ⟨-, rfl⟩ := Outcome.pure_pair_eq_ok.mp haction
    exact ⟨p, h.stay (by simp [hrole])⟩
  | read =>
    rw [hrole] at haction
    obtain ⟨⟨read, cursor'⟩, hrequest, haction⟩ := Outcome.bind_eq_ok.mp haction
    obtain ⟨-, rfl⟩ := Outcome.pure_pair_eq_ok.mp haction
    rw [requestByte_of_unmasked (masked_of_no_captions hview 0) hrequest]
    exact ⟨p, h.read _ hrole⟩
  | low j following =>
    rw [hrole] at haction
    obtain ⟨paint, passed, read, hpass, hrequest, -⟩ := slotAction_low_eq_ok haction
    obtain ⟨⟨flight, hflight, hoffset⟩, rfl⟩ :=
      passByte_of_unmasked (masked_of_no_captions hview j) hpass
    refine ⟨p + 1, ?_⟩
    cases following with
    | none =>
      obtain ⟨-, rfl⟩ := Outcome.pure_pair_eq_ok.mp hrequest
      exact h.low hbytes hrole hflight hoffset rfl (by simp)
    | some n =>
      have hnext := requestByte_of_unmasked (masked_of_no_captions hview n) hrequest
      subst hnext
      apply h.low hbytes hrole hflight hoffset rfl
      rintro _ ⟨⟩
      rfl

/-- A run over the rest of a row, if no step is refused. -/
theorem run (hbytes : pattern.bytesPerRow < UInt32.size) (hview : view.captioned = []) (count : Nat)
    {actions : List Action} (h : view.Traced pattern withLabels p col cursor)
    (hactions : view.slotActions cursor col
      ((List.range' col count).map (roleOf (pattern.claims withLabels))) = .ok (actions, next)) :
    ∃ p', view.Traced pattern withLabels p' (col + count) next := by
  induction count generalizing p col cursor actions with
  | zero =>
    obtain ⟨-, rfl⟩ := Outcome.pure_pair_eq_ok.mp hactions
    exact ⟨p, h⟩
  | succ count ih =>
    rw [List.range'_succ, List.map_cons] at hactions
    obtain ⟨⟨action, cursor'⟩, haction, hactions⟩ := Outcome.bind_eq_ok.mp hactions
    obtain ⟨⟨rest, last⟩, hrest, hactions⟩ := Outcome.bind_eq_ok.mp hactions
    obtain ⟨-, rfl⟩ := Outcome.pure_pair_eq_ok.mp hactions
    obtain ⟨p', hstep⟩ := h.step hbytes hview haction
    obtain ⟨p'', hrun⟩ := ih hstep hrest
    refine ⟨p'', ?_⟩
    rwa [Nat.add_right_comm] at hrun

end Traced

end RowView

namespace Pattern

variable {pattern : Pattern} {withLabels : Bool}

/-- A pattern is sound if all its claims are on the grid, a row of it runs to its end, and no
nibble and no label has lost its column. -/
theorem sound_of_traced {view : RowView} {p : Nat} {cursor : Cursor}
    (hpos : 0 < pattern.bytesPerRow)
    (hgrid : ∀ claim ∈ pattern.claims withLabels, claim.1 < gridColumns)
    (htraced : view.Traced pattern withLabels p gridColumns cursor)
    (hnibbles : ∀ k < pattern.bytesPerRow, ∀ nibble, ∃ j,
      (roleOf (pattern.claims withLabels) (pattern.nibbleColumn k nibble)).shows? =
        some (j, nibble))
    (hlabels : withLabels = true → ∀ nibble,
      roleOf (pattern.claims withLabels) (pattern.labelColumn nibble) = .label nibble) :
    pattern.Sound withLabels := by
  have hlowClaim : ∀ k < pattern.bytesPerRow,
      (pattern.byteColumn k + 1, .low k (pattern.nextByte k)) ∈ pattern.claims withLabels :=
    fun k hk ↦ mem_claims_low_iff.mpr ⟨hk, rfl, rfl⟩
  -- the last byte makes its claims after all others, so it shows its low nibble
  have hall : pattern.bytesPerRow ≤ p := by
    obtain ⟨j, hshows⟩ := hnibbles (pattern.bytesPerRow - 1) (by omega) .low
    obtain ⟨next, hrole⟩ := Role.shows?_low hshows
    have hcol := hgrid _ (hlowClaim (pattern.bytesPerRow - 1) (by omega))
    have hbehind := htraced.behind _ hcol j next hrole
    have hlatest := rank_le_of_claim (hlowClaim (pattern.bytesPerRow - 1) (by omega))
    have hj := mem_claims_low_iff.mp (mem_claims_of_roleOf Role.noConfusion hrole)
    change roleOf _ (pattern.byteColumn (pattern.bytesPerRow - 1) + 1) = _ at hrole
    simp only [hrole, Role.rank] at hlatest
    omega
  have hlow : ∀ k < pattern.bytesPerRow, roleOf (pattern.claims withLabels)
      (pattern.byteColumn k + 1) = .low k (pattern.nextByte k) :=
    fun k hk ↦ (htraced.shown k (by omega)).2
  have hread : roleOf (pattern.claims withLabels) pattern.readColumn.toNat = .read :=
    htraced.request_role (.inr (by omega))
  have hhigh : ∀ k < pattern.bytesPerRow, ∃ j,
      roleOf (pattern.claims withLabels) (pattern.byteColumn k) = .high j := by
    intro k hk
    obtain ⟨j, hshows⟩ := hnibbles k hk .high
    exact ⟨j, Role.shows?_high hshows⟩
  refine ⟨⟨hpos, ?_, fun k hk ↦ ?_, ?_⟩, fun hon ↦ ⟨fun heq ↦ ?_, fun nibble ↦ ⟨?_, ?_, ?_⟩⟩⟩
  · have hle := htraced.request_le (by omega)
    obtain ⟨j, hrole⟩ := hhigh 0 hpos
    apply Nat.lt_of_le_of_ne hle
    intro heq
    rw [← heq, hread] at hrole
    exact Role.noConfusion hrole
  · have hlt := htraced.increasing k (by omega)
    obtain ⟨j, hrole⟩ := hhigh (k + 1) hk
    apply Nat.lt_of_le_of_ne hlt
    intro heq
    rw [← heq, hlow k (by omega)] at hrole
    exact Role.noConfusion hrole
  · exact hgrid _ (hlowClaim _ (by omega))
  · have hhighLabel := hlabels hon .high
    rw [heq, hlabels hon .low] at hhighLabel
    cases hhighLabel
  · exact hgrid _ (mem_claims_label_iff.mpr ⟨hon, rfl⟩)
  · intro heq
    have hlabel := hlabels hon nibble
    rw [heq, hread] at hlabel
    exact Role.noConfusion hlabel
  · intro k hk
    obtain ⟨j, hrole⟩ := hhigh k hk
    have hlabel := hlabels hon nibble
    refine ⟨fun heq ↦ ?_, fun heq ↦ ?_⟩
    · rw [heq, hrole] at hlabel
      exact Role.noConfusion hlabel
    · rw [heq, hlow k hk] at hlabel
      exact Role.noConfusion hlabel

end Pattern

end InfoScreen
