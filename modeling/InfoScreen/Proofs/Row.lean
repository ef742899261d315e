import InfoScreen.Schedule
import InfoScreen.Proofs.Pipeline
import InfoScreen.Proofs.RowPlan

/-!
# Scheduling one row

The scheduler carries a cursor through the columns of a row: the offset of the next byte and the
byte in the memory port.  In a sound pattern both are known in front of every column without going
through the columns before it.  If `k` bytes have shown their low nibble, the offset is `k` beyond
the row's first, and byte `k` is in the port exactly if its request lies behind and it is not
masked.  So no step of the memory protocol is ever refused, and the action of a column depends on
nothing but its role and the captions.
-/

namespace InfoScreen

theorem Cursor.request_eq_ok {cursor next : Cursor} {slot : Nat} {offset : UInt32}
    (h : cursor.request slot = .ok (offset, next)) :
    cursor.port = {} ∧ offset = UInt32.ofNat cursor.address ∧
      next = ⟨cursor.address, ⟨some ⟨slot, offset⟩⟩⟩ := by
  rw [Cursor.request] at h
  rcases hissue : cursor.port.issue slot (UInt32.ofNat cursor.address) with ⟨issued, port⟩
  rw [hissue] at h
  obtain ⟨rfl, h⟩ := Outcome.check_bind_eq_ok.mp h
  obtain ⟨rfl, rfl⟩ := Outcome.pure_pair_eq_ok.mp h
  obtain ⟨hempty, rfl⟩ := Pipeline.issue_eq_ok_iff.mp hissue
  exact ⟨congrArg Pipeline.mk hempty, rfl, rfl⟩

namespace RowView

def requestSlot (view : RowView) (pattern : Pattern) (k : Nat) : Nat :=
  (⟨view.row, pattern.requestColumn k⟩ : Cell).address

def shown (view : RowView) (pattern : Pattern) (col : Nat) : Role → Option Paint
  | .high k => if view.masked k then none else some (.fetched .high (view.requestSlot pattern k))
  | .low k _ => if view.masked k then none else some (.fetched .low (view.requestSlot pattern k))
  | .label nibble =>
    if view.covered col then none else some (.cursorAddress nibble (view.offset 0))
  | .idle => none
  | .read => none

def requested (view : RowView) (role : Role) : Option UInt32 :=
  match role.requests? with
  | none => none
  | some n => if view.masked n then none else some (view.offset n)

/-- The action of a column of some role, told without a cursor. -/
def actionFor (view : RowView) (pattern : Pattern) (col : Nat) (role : Role) : Action :=
  { Action.idle ⟨view.row, col⟩ view.bank with
    paint := view.shown pattern col role
    read := view.requested role }

/-- The port in front of column `col`, if byte `k` is the next to show its low nibble. -/
def portBefore (view : RowView) (pattern : Pattern) (k col : Nat) : Pipeline :=
  if k < pattern.bytesPerRow ∧ view.masked k = false ∧ pattern.requestColumn k < col then
    ⟨some ⟨view.requestSlot pattern k, view.offset k⟩⟩
  else {}

def cursorBefore (view : RowView) (pattern : Pattern) (k col : Nat) : Cursor :=
  ⟨view.start + k, view.portBefore pattern k col⟩

end RowView

namespace Pattern

/-- In front of column `col`, byte `k` is the next to show its low nibble. -/
structure NextByte (pattern : Pattern) (k col : Nat) : Prop where
  le_bytes : k ≤ pattern.bytesPerRow
  passed : ∀ j < k, pattern.byteColumn j + 1 < col
  ahead : ∀ j, k ≤ j → j < pattern.bytesPerRow → col ≤ pattern.byteColumn j + 1

namespace NextByte

variable {pattern : Pattern} {k col : Nat}

theorem start : pattern.NextByte 0 0 := ⟨Nat.zero_le _, by simp, by simp⟩

/-- At the end of the grid all bytes are shown. -/
theorem eq_bytesPerRow (h : pattern.NextByte k gridColumns) (horder : pattern.Ordered) :
    k = pattern.bytesPerRow := by
  rcases Nat.lt_or_eq_of_le h.le_bytes with hk | hk
  · have hahead := h.ahead k (Nat.le_refl k) hk
    exact absurd (horder.byteColumn_lt hk) (Nat.not_lt_of_le hahead)
  · exact hk

theorem eq_zero (h : pattern.NextByte k pattern.readColumn.toNat) (horder : pattern.Ordered) :
    k = 0 := by
  rcases Nat.eq_zero_or_pos k with hk | hk
  · exact hk
  · have hpassed := h.passed 0 hk
    have hfirst := horder.request_lt
    omega

/-- In front of either nibble of a byte, that byte is the next. -/
theorem eq_of_nibble (h : pattern.NextByte k col) (horder : pattern.Ordered) {j : Nat}
    (hj : j < pattern.bytesPerRow)
    (hcol : col = pattern.byteColumn j ∨ col = pattern.byteColumn j + 1) : k = j := by
  rcases Nat.lt_trichotomy k j with hlt | heq | hgt
  · have hahead := h.ahead k (Nat.le_refl k) (Nat.lt_trans hlt hj)
    have hspaced := horder.byteColumn_add_two_le hlt hj
    omega
  · exact heq
  · have hpassed := h.passed j hgt
    omega

/-- Behind the request of a byte, that byte is the next. -/
theorem eq_of_request {j : Nat} (h : pattern.NextByte k (pattern.requestColumn j + 1))
    (horder : pattern.Ordered) (hj : j < pattern.bytesPerRow) : k = j := by
  have hrequest := horder.requestColumn_lt_byteColumn hj
  rcases Nat.lt_trichotomy k j with hlt | heq | hgt
  · have hahead := h.ahead k (Nat.le_refl k) (Nat.lt_trans hlt hj)
    have hshown := horder.byteColumn_lt_requestColumn hlt hj
    omega
  · exact heq
  · have hpassed := h.passed j hgt
    omega

/-- A column without a low nibble leaves the next byte as it is. -/
theorem stay (h : pattern.NextByte k col)
    (hcol : ∀ j < pattern.bytesPerRow, col ≠ pattern.byteColumn j + 1) :
    pattern.NextByte k (col + 1) := by
  refine ⟨h.le_bytes, fun j hj ↦ ?_, fun j hkj hj ↦ ?_⟩
  · exact Nat.lt_succ_of_lt (h.passed j hj)
  · exact Nat.lt_of_le_of_ne (h.ahead j hkj hj) (hcol j hj)

/-- A low nibble moves on to the byte after it. -/
theorem advance (h : pattern.NextByte k (pattern.byteColumn k + 1)) (horder : pattern.Ordered)
    (hk : k < pattern.bytesPerRow) : pattern.NextByte (k + 1) (pattern.byteColumn k + 1 + 1) := by
  refine ⟨hk, fun j hj ↦ ?_, fun j hkj hj ↦ ?_⟩
  · rcases Nat.lt_succ_iff_lt_or_eq.mp hj with hlt | rfl
    · exact Nat.lt_succ_of_lt (h.passed j hlt)
    · exact Nat.lt_succ_self _
  · have hspaced := horder.byteColumn_add_two_le hkj hj
    omega

end NextByte

end Pattern

namespace RowView

variable {view : RowView} {pattern : Pattern} {withLabels : Bool} {k col : Nat}

theorem requested_eq_some_iff {role : Role} {offset : UInt32} :
    view.requested role = some offset ↔
      ∃ n, role.requests? = some n ∧ view.masked n = false ∧ view.offset n = offset := by
  unfold requested
  cases hrequests : role.requests? with
  | none => simp
  | some n => cases hmasked : view.masked n <;> simp [hmasked]

theorem shown_eq_some_iff {role : Role} {paint : Paint} :
    view.shown pattern col role = some paint ↔
      (∃ k nibble, role.shows? = some (k, nibble) ∧ view.masked k = false ∧
        .fetched nibble (view.requestSlot pattern k) = paint) ∨
      (∃ nibble, role = .label nibble ∧ view.covered col = false ∧
        .cursorAddress nibble (view.offset 0) = paint) := by
  have hnibble (k : Nat) (nibble : Nibble) :
      (if view.masked k then none
        else some (Paint.fetched nibble (view.requestSlot pattern k))) = some paint ↔
      ∃ j other, (k = j ∧ nibble = other) ∧ view.masked j = false ∧
        .fetched other (view.requestSlot pattern j) = paint := by
    rw [Option.ite_none_left_eq_some, Bool.not_eq_true]
    constructor
    · rintro ⟨hmasked, hpaint⟩
      exact ⟨k, nibble, ⟨rfl, rfl⟩, hmasked, Option.some.inj hpaint⟩
    · rintro ⟨j, other, ⟨rfl, rfl⟩, hmasked, hpaint⟩
      exact ⟨hmasked, congrArg some hpaint⟩
  cases role with
  | idle => simp [shown, Role.shows?]
  | read => simp [shown, Role.shows?]
  | high k =>
    rw [shown, hnibble]
    simp [Role.shows?]
  | low k next =>
    rw [shown, hnibble]
    simp [Role.shows?]
  | label nibble => cases hcovered : view.covered col <;> simp [shown, Role.shows?, hcovered]

theorem portBefore_of_not_requested (h : ¬pattern.requestColumn k < col) :
    view.portBefore pattern k col = {} := by
  rw [portBefore, if_neg]
  rintro ⟨-, -, hlt⟩
  exact h hlt

theorem portBefore_of_masked (h : view.masked k = true) : view.portBefore pattern k col = {} := by
  rw [portBefore, if_neg]
  rintro ⟨-, hmasked, -⟩
  simp [h] at hmasked

theorem portBefore_of_requested (hk : k < pattern.bytesPerRow) (hmasked : view.masked k = false)
    (hcol : pattern.requestColumn k < col) :
    view.portBefore pattern k col = ⟨some ⟨view.requestSlot pattern k, view.offset k⟩⟩ := by
  rw [portBefore, if_pos ⟨hk, hmasked, hcol⟩]

/-- Only the request of the next byte changes the port. -/
theorem portBefore_succ (h : k < pattern.bytesPerRow → pattern.requestColumn k ≠ col) :
    view.portBefore pattern k (col + 1) = view.portBefore pattern k col := by
  have hiff : (k < pattern.bytesPerRow ∧ view.masked k = false ∧
        pattern.requestColumn k < col + 1) ↔
      (k < pattern.bytesPerRow ∧ view.masked k = false ∧ pattern.requestColumn k < col) := by
    constructor
    · rintro ⟨hk, hmasked, hcol⟩
      exact ⟨hk, hmasked, Nat.lt_of_le_of_ne (Nat.lt_succ_iff.mp hcol) (h hk)⟩
    · rintro ⟨hk, hmasked, hcol⟩
      exact ⟨hk, hmasked, Nat.lt_succ_of_lt hcol⟩
  simp only [portBefore, hiff]

/-! ## One column -/

theorem requestByte_cases {cursor next : Cursor} {slot n : Nat} {read : Option UInt32}
    (h : view.requestByte cursor slot n = .ok (read, next)) :
    (view.masked n = true ∧ read = none ∧ next = cursor) ∨
      (view.masked n = false ∧ cursor.port = {} ∧ ∃ offset, read = some offset ∧
        offset = UInt32.ofNat cursor.address ∧
          next = ⟨cursor.address, ⟨some ⟨slot, offset⟩⟩⟩) := by
  unfold requestByte at h
  split at h
  next hmasked =>
    obtain ⟨rfl, rfl⟩ := Outcome.pure_pair_eq_ok.mp h
    exact .inl ⟨hmasked, rfl, rfl⟩
  next hmasked =>
    obtain ⟨⟨offset, requested⟩, hrequest, h⟩ := Outcome.bind_eq_ok.mp h
    obtain ⟨rfl, rfl⟩ := Outcome.pure_pair_eq_ok.mp h
    obtain ⟨hport, hoffset, hnext⟩ := Cursor.request_eq_ok hrequest
    exact .inr ⟨(Bool.not_eq_true _).mp hmasked, hport, offset, rfl, hoffset, hnext⟩

theorem passByte_cases {cursor next : Cursor} {slot k : Nat} {paint : Option Paint}
    (h : view.passByte cursor slot k = .ok (paint, next)) :
    (view.masked k = true ∧ paint = none ∧ next = ⟨cursor.address + 1, cursor.port⟩) ∨
      (view.masked k = false ∧ ∃ readSlot, paint = some (.fetched .low readSlot) ∧
        cursor.port.inFlight = some ⟨readSlot, view.offset k⟩ ∧
          readSlot + lowLatency ≤ slot ∧ next = ⟨cursor.address + 1, {}⟩) := by
  unfold passByte at h
  split at h
  next hmasked =>
    obtain ⟨rfl, rfl⟩ := Outcome.pure_pair_eq_ok.mp h
    exact .inl ⟨hmasked, rfl, rfl⟩
  next hmasked =>
    rcases hlow : cursor.port.low slot (view.offset k) with ⟨shown, port⟩
    rw [hlow] at h
    obtain ⟨readSlot, rfl, h⟩ := Outcome.bind_eq_ok.mp h
    obtain ⟨rfl, rfl⟩ := Outcome.pure_pair_eq_ok.mp h
    obtain ⟨hflight, -, hold, rfl⟩ := Pipeline.low_eq_ok_iff.mp hlow
    exact .inr ⟨(Bool.not_eq_true _).mp hmasked, readSlot, rfl, hflight, hold, rfl⟩

/-- A request at the cursor, while the port is empty. -/
theorem requestByte_eq (slot n : Nat) :
    view.requestByte ⟨view.start + n, {}⟩ slot n =
      .ok (if view.masked n then none else some (view.offset n),
        ⟨view.start + n, if view.masked n then {} else ⟨some ⟨slot, view.offset n⟩⟩⟩) := by
  unfold requestByte
  cases hmasked : view.masked n with
  | true => rfl
  | false => rfl

theorem slotAction_read (horder : pattern.Ordered)
    (hnext : pattern.NextByte k pattern.readColumn.toNat) :
    view.slotAction (view.cursorBefore pattern k pattern.readColumn.toNat)
        pattern.readColumn.toNat .read =
      .ok (view.actionFor pattern pattern.readColumn.toNat .read,
        view.cursorBefore pattern k (pattern.readColumn.toNat + 1)) := by
  obtain rfl := hnext.eq_zero horder
  have hbefore : view.portBefore pattern 0 pattern.readColumn.toNat = {} :=
    portBefore_of_not_requested (Nat.lt_irrefl _)
  have hafter : view.portBefore pattern 0 (pattern.readColumn.toNat + 1) =
      if view.masked 0 then {} else ⟨some ⟨view.requestSlot pattern 0, view.offset 0⟩⟩ := by
    cases hmasked : view.masked 0 with
    | true => exact portBefore_of_masked hmasked
    | false => exact portBefore_of_requested horder.bytes_pos hmasked (Nat.lt_succ_self _)
  rw [cursorBefore, cursorBefore, hbefore, hafter]
  simp only [slotAction, requestByte_eq, Outcome.ok_bind]
  rfl

/-- Slots of the screen are far below the largest number. -/
theorem requestSlot_lt (horder : pattern.Ordered) (hrow : view.row < UInt16.size)
    (hk : k < pattern.bytesPerRow) : view.requestSlot pattern k + lowLatency < UInt64.size := by
  have hrequest := horder.requestColumn_lt_byteColumn hk
  have hgrid := horder.byteColumn_lt hk
  simp only [requestSlot, Cell.address, gridColumns, lowLatency, UInt16.size, UInt64.size] at *
  omega

theorem slotAction_high (horder : pattern.Ordered) (hrow : view.row < UInt16.size)
    (hk : k < pattern.bytesPerRow) :
    view.slotAction (view.cursorBefore pattern k (pattern.byteColumn k)) (pattern.byteColumn k)
        (.high k) =
      .ok (view.actionFor pattern (pattern.byteColumn k) (.high k),
        view.cursorBefore pattern k (pattern.byteColumn k + 1)) := by
  have hrequest := horder.requestColumn_lt_byteColumn hk
  have hafter : view.portBefore pattern k (pattern.byteColumn k + 1) =
      view.portBefore pattern k (pattern.byteColumn k) :=
    portBefore_succ fun _ ↦ Nat.ne_of_lt hrequest
  rw [cursorBefore, cursorBefore, hafter]
  unfold slotAction actionFor
  cases hmasked : view.masked k with
  | true => simp only [hmasked, if_true, shown, requested]; rfl
  | false =>
    have hshown : (view.portBefore pattern k (pattern.byteColumn k)).high
        (Action.idle ⟨view.row, pattern.byteColumn k⟩ view.bank).slot (view.offset k) =
          .ok (view.requestSlot pattern k) := by
      refine Pipeline.high_eq_ok_iff.mpr ⟨?_, ?_, ?_⟩
      · rw [portBefore_of_requested hk hmasked hrequest]
      · exact Nat.lt_of_succ_lt (requestSlot_lt horder hrow hk)
      · apply Nat.add_lt_add_left
        exact hrequest
    simp only [hmasked, hshown, shown, requested, Outcome.ok_bind]
    rfl

/-- The low nibble of byte `k` empties the port, and the cursor stands at the next byte. -/
theorem passByte_eq (horder : pattern.Ordered) (hrow : view.row < UInt16.size)
    (hk : k < pattern.bytesPerRow) :
    view.passByte (view.cursorBefore pattern k (pattern.byteColumn k + 1))
        (⟨view.row, pattern.byteColumn k + 1⟩ : Cell).address k =
      .ok (view.shown pattern (pattern.byteColumn k + 1) (.low k (pattern.nextByte k)),
        ⟨view.start + (k + 1), {}⟩) := by
  have hrequest := horder.requestColumn_lt_byteColumn hk
  unfold passByte
  cases hmasked : view.masked k with
  | true =>
    simp only [cursorBefore, portBefore_of_masked hmasked, if_true, shown, hmasked]
    rfl
  | false =>
    have hshown : (view.cursorBefore pattern k (pattern.byteColumn k + 1)).port.low
        (⟨view.row, pattern.byteColumn k + 1⟩ : Cell).address (view.offset k) =
          (.ok (view.requestSlot pattern k), {}) := by
      refine Pipeline.low_eq_ok_iff.mpr ⟨?_, ?_, ?_, rfl⟩
      · rw [cursorBefore, portBefore_of_requested hk hmasked (Nat.lt_succ_of_lt hrequest)]
      · exact requestSlot_lt horder hrow hk
      · apply Nat.succ_le_succ
        exact Nat.add_lt_add_left hrequest _
    simp only [hshown, shown, hmasked, Outcome.ok_bind]
    rfl

theorem slotAction_low (horder : pattern.Ordered) (hrow : view.row < UInt16.size)
    (hk : k < pattern.bytesPerRow) :
    view.slotAction (view.cursorBefore pattern k (pattern.byteColumn k + 1))
        (pattern.byteColumn k + 1) (.low k (pattern.nextByte k)) =
      .ok (view.actionFor pattern (pattern.byteColumn k + 1) (.low k (pattern.nextByte k)),
        view.cursorBefore pattern (k + 1) (pattern.byteColumn k + 1 + 1)) := by
  have hslot : (Action.idle ⟨view.row, pattern.byteColumn k + 1⟩ view.bank).slot =
      (⟨view.row, pattern.byteColumn k + 1⟩ : Cell).address := rfl
  unfold slotAction
  simp only [hslot, passByte_eq horder hrow hk, Outcome.ok_bind]
  by_cases hlt : k + 1 < pattern.bytesPerRow
  · have hnext : pattern.nextByte k = some (k + 1) := if_pos hlt
    have hafter : view.portBefore pattern (k + 1) (pattern.byteColumn k + 1 + 1) =
        if view.masked (k + 1) then {}
        else ⟨some ⟨view.requestSlot pattern (k + 1), view.offset (k + 1)⟩⟩ := by
      cases hmasked : view.masked (k + 1) with
      | true => exact portBefore_of_masked hmasked
      | false => exact portBefore_of_requested hlt hmasked (Nat.lt_succ_self _)
    simp only [hnext, requestByte_eq, Outcome.ok_bind, cursorBefore, hafter]
    rfl
  · have hnext : pattern.nextByte k = none := if_neg hlt
    have hafter : view.portBefore pattern (k + 1) (pattern.byteColumn k + 1 + 1) = {} := by
      rw [portBefore, if_neg fun h ↦ hlt h.1]
    simp only [hnext, cursorBefore, hafter]
    rfl

/-- A column that neither requests nor shows a byte leaves the cursor as it is. -/
theorem cursorBefore_succ (hnext : pattern.NextByte k col) (hread : col ≠ pattern.readColumn.toNat)
    (hlow : ∀ j < pattern.bytesPerRow, col ≠ pattern.byteColumn j + 1) :
    view.cursorBefore pattern k (col + 1) = view.cursorBefore pattern k col := by
  rw [cursorBefore, cursorBefore, portBefore_succ]
  intro hk
  cases k with
  | zero => exact Ne.symm hread
  | succ k => exact Ne.symm (hlow k (by omega))

/-- One step of the row: the action of a column is the one told by its role, and the cursor stays
as predicted. -/
theorem slotAction_eq (view : RowView) (hsound : pattern.Sound withLabels)
    (hrow : view.row < UInt16.size) (hnext : pattern.NextByte k col) :
    ∃ next, pattern.NextByte next (col + 1) ∧
      view.slotAction (view.cursorBefore pattern k col) col
          (roleOf (pattern.claims withLabels) col) =
        .ok (view.actionFor pattern col (roleOf (pattern.claims withLabels) col),
          view.cursorBefore pattern next (col + 1)) := by
  have horder := hsound.toOrdered
  -- the columns that move the cursor are known by their role
  have hread : col = pattern.readColumn.toNat → roleOf (pattern.claims withLabels) col = .read :=
    hsound.roleOf_eq_read_iff.mpr
  have hlow : ∀ j < pattern.bytesPerRow, col = pattern.byteColumn j + 1 →
      roleOf (pattern.claims withLabels) col = .low j (pattern.nextByte j) :=
    fun j hj hcol ↦ hsound.roleOf_eq_low_iff.mpr ⟨hj, hcol, rfl⟩
  cases hrole : roleOf (pattern.claims withLabels) col with
  | idle =>
    rw [hrole] at hread hlow
    have hno : ∀ j < pattern.bytesPerRow, col ≠ pattern.byteColumn j + 1 :=
      fun j hj hcol ↦ Role.noConfusion (hlow j hj hcol)
    refine ⟨k, hnext.stay hno, ?_⟩
    rw [cursorBefore_succ hnext (fun hcol ↦ Role.noConfusion (hread hcol)) hno]
    rfl
  | read =>
    obtain rfl := hsound.roleOf_eq_read_iff.mp hrole
    rw [hrole] at hlow
    have hno : ∀ j < pattern.bytesPerRow, pattern.readColumn.toNat ≠ pattern.byteColumn j + 1 :=
      fun j hj hcol ↦ Role.noConfusion (hlow j hj hcol)
    exact ⟨k, hnext.stay hno, slotAction_read horder hnext⟩
  | high j =>
    obtain ⟨hj, rfl⟩ := hsound.roleOf_eq_high_iff.mp hrole
    obtain rfl := hnext.eq_of_nibble horder hj (.inl rfl)
    rw [hrole] at hlow
    have hno : ∀ i < pattern.bytesPerRow, pattern.byteColumn k ≠ pattern.byteColumn i + 1 :=
      fun i hi hcol ↦ Role.noConfusion (hlow i hi hcol)
    exact ⟨k, hnext.stay hno, slotAction_high horder hrow hj⟩
  | low j next =>
    obtain ⟨hj, rfl, rfl⟩ := hsound.roleOf_eq_low_iff.mp hrole
    obtain rfl := hnext.eq_of_nibble horder hj (.inr rfl)
    exact ⟨k + 1, hnext.advance horder hj, slotAction_low horder hrow hj⟩
  | label nibble =>
    rw [hrole] at hread hlow
    have hno : ∀ j < pattern.bytesPerRow, col ≠ pattern.byteColumn j + 1 :=
      fun j hj hcol ↦ Role.noConfusion (hlow j hj hcol)
    refine ⟨k, hnext.stay hno, ?_⟩
    rw [cursorBefore_succ hnext (fun hcol ↦ Role.noConfusion (hread hcol)) hno]
    unfold slotAction actionFor
    cases hcovered : view.covered col <;> simp only [hcovered, shown, requested] <;> rfl

/-- Some columns of a row, from a column on: every column acts as its role says, and the cursor is
as predicted behind the last of them. -/
theorem slotActions_eq (view : RowView) (hsound : pattern.Sound withLabels)
    (hrow : view.row < UInt16.size) (count : Nat) (hnext : pattern.NextByte k col) :
    ∃ next, pattern.NextByte next (col + count) ∧
      view.slotActions (view.cursorBefore pattern k col) col
          ((List.range' col count).map (roleOf (pattern.claims withLabels))) =
        .ok ((List.range' col count).map
            fun col ↦ view.actionFor pattern col (roleOf (pattern.claims withLabels) col),
          view.cursorBefore pattern next (col + count)) := by
  induction count generalizing k col with
  | zero => exact ⟨k, hnext, rfl⟩
  | succ count ih =>
    obtain ⟨between, hbetween, hstep⟩ := view.slotAction_eq hsound hrow hnext
    obtain ⟨next, hnext', hrest⟩ := ih hbetween
    rw [Nat.add_right_comm, Nat.add_assoc] at hnext' hrest
    refine ⟨next, hnext', ?_⟩
    simp only [List.range'_succ, List.map_cons, slotActions, hstep, Outcome.ok_bind, hrest]
    rfl

/-- The columns of a row in front of a column, begun with an empty port. -/
theorem slotActions_upTo (view : RowView) (hsound : pattern.Sound withLabels)
    (hrow : view.row < UInt16.size) (col : Nat) :
    ∃ next, pattern.NextByte next col ∧
      view.slotActions ⟨view.start, {}⟩ 0
          ((List.range col).map (roleOf (pattern.claims withLabels))) =
        .ok ((List.range col).map
            fun col ↦ view.actionFor pattern col (roleOf (pattern.claims withLabels) col),
          view.cursorBefore pattern next col) := by
  have hempty : view.portBefore pattern 0 0 = {} := portBefore_of_not_requested (Nat.not_lt_zero _)
  have h := view.slotActions_eq hsound hrow col .start
  rw [cursorBefore, hempty, Nat.zero_add] at h
  rw [List.range_eq_range']
  exact h

/-- A whole row of a sound pattern, begun with an empty port: every column acts as its role says,
and the port is empty again. -/
theorem slotActions_row (hsound : pattern.Sound withLabels) (hrow : view.row < UInt16.size) :
    view.slotActions ⟨view.start, {}⟩ 0
        ((List.range gridColumns).map (roleOf (pattern.claims withLabels))) =
      .ok ((List.range gridColumns).map
          fun col ↦ view.actionFor pattern col (roleOf (pattern.claims withLabels) col),
        ⟨view.start + pattern.bytesPerRow, {}⟩) := by
  obtain ⟨next, hnext, hactions⟩ := view.slotActions_upTo hsound hrow gridColumns
  obtain rfl := hnext.eq_bytesPerRow hsound.toOrdered
  have hdrained : view.portBefore pattern pattern.bytesPerRow gridColumns = {} := by
    rw [portBefore, if_neg fun h ↦ Nat.lt_irrefl _ h.1]
  rw [cursorBefore, hdrained] at hactions
  exact hactions

end RowView

end InfoScreen
