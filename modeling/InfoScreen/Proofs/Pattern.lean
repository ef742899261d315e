import InfoScreen.Config.Validity
import InfoScreen.Proofs.Outcome

/-!
# Patterns that can be shown

A pattern passes its check exactly if its columns stand in one order: the request of the first
byte, then for each byte its high and its low nibble, all on the grid and with room between two
bytes.  In such a pattern byte `k` is on its way from the column of its request, which is the
column of the previous low nibble, to the column of its own low nibble, and these stretches follow
each other without overlap.  Labels take two further columns.
-/

namespace InfoScreen

namespace Pattern

def byteColumn (pattern : Pattern) (k : Nat) : Nat := (pattern.byteColumns.getD k 0).toNat

def nibbleColumn (pattern : Pattern) (k : Nat) : Nibble → Nat
  | .high => pattern.byteColumn k
  | .low => pattern.byteColumn k + 1

/-- The column in which byte `k` is requested. -/
def requestColumn (pattern : Pattern) : Nat → Nat
  | 0 => pattern.readColumn.toNat
  | k + 1 => pattern.byteColumn k + 1

def labelColumn (pattern : Pattern) : Nibble → Nat
  | .high => pattern.labelColumns.1.toNat
  | .low => pattern.labelColumns.2.toNat

/-- The columns of a pattern stand in the order in which they are used, and all on the grid. -/
structure Ordered (pattern : Pattern) : Prop where
  bytes_pos : 0 < pattern.bytesPerRow
  request_lt : pattern.readColumn.toNat < pattern.byteColumn 0
  spaced : ∀ k, k + 1 < pattern.bytesPerRow → pattern.byteColumn k + 2 ≤ pattern.byteColumn (k + 1)
  last_lt : pattern.byteColumn (pattern.bytesPerRow - 1) + 1 < gridColumns

structure Free (pattern : Pattern) (col : Nat) : Prop where
  lt_grid : col < gridColumns
  ne_request : col ≠ pattern.readColumn.toNat
  ne_nibble : ∀ k < pattern.bytesPerRow, col ≠ pattern.byteColumn k ∧ col ≠ pattern.byteColumn k + 1

structure Labelled (pattern : Pattern) : Prop where
  ne : pattern.labelColumn .high ≠ pattern.labelColumn .low
  free : ∀ nibble, pattern.Free (pattern.labelColumn nibble)

/-- What the check of a pattern asks for. -/
structure Sound (pattern : Pattern) (withLabels : Bool) : Prop extends pattern.Ordered where
  labelled : withLabels = true → pattern.Labelled

variable {pattern : Pattern} {withLabels : Bool}

theorem byteColumn_eq_getElem {k : Nat} (h : k < pattern.byteColumns.length) :
    pattern.byteColumn k = pattern.byteColumns[k].toNat := by
  simp [byteColumn, h]

theorem getElem?_byteColumns {k : Nat} (h : k < pattern.bytesPerRow) :
    pattern.byteColumns[k]? = some (pattern.byteColumns.getD k 0) := by
  rw [bytesPerRow] at h
  simp [h]

theorem paintsColumn_iff (col : Nat) :
    pattern.paintsColumn col = true ↔
      ∃ k < pattern.bytesPerRow, col = pattern.byteColumn k ∨ col = pattern.byteColumn k + 1 := by
  simp only [paintsColumn, List.any_eq_true, Bool.or_eq_true, beq_iff_eq, bytesPerRow]
  constructor
  · rintro ⟨c, hc, hcol⟩
    obtain ⟨k, hk, rfl⟩ := List.getElem_of_mem hc
    refine ⟨k, hk, ?_⟩
    rw [byteColumn_eq_getElem hk]
    exact hcol.imp Eq.symm Eq.symm
  · rintro ⟨k, hk, hcol⟩
    rw [byteColumn_eq_getElem hk] at hcol
    exact ⟨pattern.byteColumns[k], List.getElem_mem hk, hcol.imp Eq.symm Eq.symm⟩

/-- The overflow guard of the spacing check never decides: a column that close to the largest
number has no room for the next one. -/
theorem checkSpacing_eq_ok_iff (columns : List UInt16) :
    checkSpacing columns = .ok () ↔
      ∀ k, k + 1 < columns.length →
        (columns.getD k 0).toNat + 2 ≤ (columns.getD (k + 1) 0).toNat := by
  fun_induction checkSpacing columns with
  | case1 col next rest hoverflow =>
    have hnext := next.toNat_lt_size
    constructor
    · intro h
      exact absurd h (Outcome.halt_ne_ok _ _)
    · intro h
      have := h 0 (by simp)
      simp only [List.getD_cons_zero, List.getD_cons_succ] at this
      omega
  | case2 col next rest _ hcrowded =>
    constructor
    · intro h
      exact absurd h (Outcome.refuse_ne_ok _ _)
    · intro h
      have := h 0 (by simp)
      simp only [List.getD_cons_zero, List.getD_cons_succ] at this
      omega
  | case3 col next rest _ hspaced ih =>
    rw [ih]
    constructor
    · intro h k hk
      cases k with
      | zero => simpa using hspaced
      | succ k => simpa using h k (by simpa using hk)
    · intro h k hk
      simpa using h (k + 1) (by simpa using hk)
  | case4 columns hshort =>
    simp only [Outcome.pure_eq_ok, true_iff]
    intro k hk
    rcases columns with _ | ⟨col, _ | ⟨next, rest⟩⟩
    · simp at hk
    · simp at hk
    · exact absurd rfl (hshort col next rest)

theorem checkBytes_of_empty (hempty : pattern.bytesPerRow = 0) :
    pattern.checkBytes = refuse (.invalidPattern .noByteColumns) := by
  simp [checkBytes, List.length_eq_zero_iff.mp hempty]

/-- The check of the byte columns looks at the first, at the last, and then at their distances. -/
theorem checkBytes_of_pos (hpos : 0 < pattern.bytesPerRow) :
    pattern.checkBytes =
      if pattern.byteColumn 0 ≤ pattern.readColumn.toNat then
        refuse (.invalidPattern
          (.readNotFirst pattern.readColumn (pattern.byteColumns.getD 0 0)))
      else if UInt16.size ≤ pattern.byteColumn (pattern.bytesPerRow - 1) + 1 then
        halt .sumOverflow
      else if gridColumns ≤ pattern.byteColumn (pattern.bytesPerRow - 1) + 1 then
        refuse (.invalidPattern (.offRow (pattern.byteColumns.getD (pattern.bytesPerRow - 1) 0)))
      else checkSpacing pattern.byteColumns := by
  have hfirst : pattern.byteColumns.head? = some (pattern.byteColumns.getD 0 0) := by
    rw [List.head?_eq_getElem?, getElem?_byteColumns hpos]
  have hlast : pattern.byteColumns.getLast? =
      some (pattern.byteColumns.getD (pattern.bytesPerRow - 1) 0) := by
    rw [List.getLast?_eq_getElem?]
    exact getElem?_byteColumns (Nat.pred_lt_of_lt hpos)
  rw [checkBytes, hfirst, hlast]
  rfl

theorem checkBytes_eq_ok_iff : pattern.checkBytes = .ok () ↔ pattern.Ordered := by
  have hspacing : checkSpacing pattern.byteColumns = .ok () ↔
      ∀ k, k + 1 < pattern.bytesPerRow →
        pattern.byteColumn k + 2 ≤ pattern.byteColumn (k + 1) :=
    checkSpacing_eq_ok_iff pattern.byteColumns
  rcases Nat.eq_zero_or_pos pattern.bytesPerRow with hempty | hpos
  · rw [checkBytes_of_empty hempty]
    refine ⟨fun h ↦ absurd h (Outcome.refuse_ne_ok _ _), fun h ↦ ?_⟩
    exact absurd hempty (Nat.pos_iff_ne_zero.mp h.bytes_pos)
  · rw [checkBytes_of_pos hpos, Outcome.guard_refuse_eq_ok, Outcome.guard_halt_eq_ok,
      Outcome.guard_refuse_eq_ok, hspacing]
    constructor
    · rintro ⟨hread, -, hgrid, hspaced⟩
      exact ⟨hpos, Nat.lt_of_not_le hread, hspaced, Nat.lt_of_not_le hgrid⟩
    · intro h
      have hgrid := h.last_lt
      refine ⟨Nat.not_le_of_lt h.request_lt, ?_, Nat.not_le_of_lt hgrid, h.spaced⟩
      simp only [gridColumns, UInt16.size] at hgrid ⊢
      omega

theorem checkLabel_eq_ok_iff (col : UInt16) :
    pattern.checkLabel col = .ok () ↔ pattern.Free col.toNat := by
  unfold checkLabel
  rw [Outcome.guard_refuse_eq_ok, Outcome.guard_refuse_eq_ok,
    paintsColumn_iff, Outcome.pure_eq_ok, ← UInt16.toNat_inj]
  constructor
  · rintro ⟨hgrid, htaken, -⟩
    refine ⟨Nat.lt_of_not_le hgrid, fun h ↦ htaken (.inl h), fun k hk ↦ ⟨?_, ?_⟩⟩
    · exact fun h ↦ htaken (.inr ⟨k, hk, .inl h⟩)
    · exact fun h ↦ htaken (.inr ⟨k, hk, .inr h⟩)
  · intro h
    refine ⟨Nat.not_le_of_lt h.lt_grid, ?_, rfl⟩
    rintro (hread | ⟨k, hk, hcol⟩)
    · exact h.ne_request hread
    · exact hcol.elim (h.ne_nibble k hk).1 (h.ne_nibble k hk).2

theorem checkLabels_eq_ok_iff : pattern.checkLabels = .ok () ↔ pattern.Labelled := by
  unfold checkLabels
  rw [Outcome.guard_refuse_eq_ok, Outcome.check_bind_eq_ok,
    ← UInt16.toNat_inj]
  constructor
  · rintro ⟨hne, hhigh, hlow⟩
    refine ⟨hne, fun nibble ↦ ?_⟩
    cases nibble with
    | high => exact (checkLabel_eq_ok_iff _).mp hhigh
    | low => exact (checkLabel_eq_ok_iff _).mp hlow
  · intro h
    exact ⟨h.ne, (checkLabel_eq_ok_iff _).mpr (h.free .high),
      (checkLabel_eq_ok_iff _).mpr (h.free .low)⟩

theorem check_eq_ok_iff : pattern.check withLabels = .ok () ↔ pattern.Sound withLabels := by
  unfold check
  rw [Outcome.check_bind_eq_ok]
  constructor
  · rintro ⟨hbytes, hlabels⟩
    refine ⟨checkBytes_eq_ok_iff.mp hbytes, fun hon ↦ ?_⟩
    rw [if_pos hon] at hlabels
    exact checkLabels_eq_ok_iff.mp hlabels
  · intro h
    refine ⟨checkBytes_eq_ok_iff.mpr h.toOrdered, ?_⟩
    cases withLabels with
    | false => rfl
    | true => exact checkLabels_eq_ok_iff.mpr (h.labelled rfl)

/-- No byte is requested in a free column. -/
theorem Free.ne_requestColumn {col : Nat} (h : pattern.Free col) {k : Nat}
    (hk : k < pattern.bytesPerRow) : col ≠ pattern.requestColumn k := by
  cases k with
  | zero => exact h.ne_request
  | succ k => exact (h.ne_nibble k (Nat.lt_of_succ_lt hk)).2

theorem Labelled.labelColumn_inj (h : pattern.Labelled) {nibble other : Nibble}
    (hcol : pattern.labelColumn nibble = pattern.labelColumn other) : nibble = other := by
  have hne := h.ne
  cases nibble <;> cases other
  · rfl
  · exact absurd hcol hne
  · exact absurd hcol.symm hne
  · rfl

/-! ## The order of the columns -/

namespace Ordered

theorem byteColumn_add_two_le (h : pattern.Ordered) {j k : Nat} (hjk : j < k)
    (hk : k < pattern.bytesPerRow) : pattern.byteColumn j + 2 ≤ pattern.byteColumn k := by
  induction k with
  | zero => omega
  | succ k ih =>
    have hstep := h.spaced k hk
    rcases Nat.lt_succ_iff_lt_or_eq.mp hjk with hlt | rfl
    · calc
        pattern.byteColumn j + 2 ≤ pattern.byteColumn k := ih hlt (Nat.lt_of_succ_lt hk)
        _ ≤ pattern.byteColumn k + 2 := Nat.le_add_right _ 2
        _ ≤ pattern.byteColumn (k + 1) := hstep
    · exact hstep

theorem byteColumn_lt (h : pattern.Ordered) {k : Nat} (hk : k < pattern.bytesPerRow) :
    pattern.byteColumn k + 1 < gridColumns := by
  have hlast := h.last_lt
  rcases Nat.lt_or_ge k (pattern.bytesPerRow - 1) with hlt | hge
  · calc
      pattern.byteColumn k + 1 ≤ pattern.byteColumn (pattern.bytesPerRow - 1) :=
        Nat.le_of_succ_le (h.byteColumn_add_two_le hlt (by omega))
      _ < pattern.byteColumn (pattern.bytesPerRow - 1) + 1 := Nat.lt_succ_self _
      _ < gridColumns := hlast
  · rwa [show pattern.bytesPerRow - 1 = k by omega] at hlast

theorem two_mul_le_byteColumn (h : pattern.Ordered) {k : Nat} (hk : k < pattern.bytesPerRow) :
    2 * k ≤ pattern.byteColumn k := by
  induction k with
  | zero => exact Nat.zero_le _
  | succ k ih =>
    have hprevious := ih (Nat.lt_of_succ_lt hk)
    have hstep := h.spaced k hk
    omega

/-- A row has no room for more bytes than columns. -/
theorem bytesPerRow_le (h : pattern.Ordered) : pattern.bytesPerRow ≤ gridColumns := by
  have hpos := h.bytes_pos
  have hlast : 2 * (pattern.bytesPerRow - 1) ≤ pattern.byteColumn (pattern.bytesPerRow - 1) :=
    h.two_mul_le_byteColumn (Nat.pred_lt_of_lt hpos)
  have hgrid := h.last_lt
  omega

theorem readColumn_lt_byteColumn (h : pattern.Ordered) {k : Nat} (hk : k < pattern.bytesPerRow) :
    pattern.readColumn.toNat < pattern.byteColumn k := by
  have hfirst := h.request_lt
  cases k with
  | zero => exact hfirst
  | succ k =>
    calc
      pattern.readColumn.toNat < pattern.byteColumn 0 := hfirst
      _ ≤ pattern.byteColumn 0 + 2 := Nat.le_add_right _ 2
      _ ≤ pattern.byteColumn (k + 1) := h.byteColumn_add_two_le (Nat.succ_pos k) hk

/-- Two nibbles are in one column only if they are the same nibble of the same byte. -/
theorem byteColumn_ne (h : pattern.Ordered) {j k : Nat} (hj : j < pattern.bytesPerRow)
    (hk : k < pattern.bytesPerRow) (hjk : j ≠ k) :
    pattern.byteColumn j ≠ pattern.byteColumn k ∧
      pattern.byteColumn j ≠ pattern.byteColumn k + 1 := by
  rcases Nat.lt_or_gt_of_ne hjk with hlt | hgt
  · have := h.byteColumn_add_two_le hlt hk
    omega
  · have := h.byteColumn_add_two_le hgt hj
    omega

theorem requestColumn_lt_byteColumn (h : pattern.Ordered) {k : Nat} (hk : k < pattern.bytesPerRow) :
    pattern.requestColumn k < pattern.byteColumn k := by
  cases k with
  | zero => exact h.request_lt
  | succ k =>
    have := h.spaced k hk
    simp only [requestColumn]
    omega

/-- A byte is shown before a later one is requested, or in the same column. -/
theorem byteColumn_lt_requestColumn (h : pattern.Ordered) {j k : Nat} (hjk : j < k)
    (hk : k < pattern.bytesPerRow) : pattern.byteColumn j + 1 ≤ pattern.requestColumn k := by
  cases k with
  | zero => omega
  | succ k =>
    simp only [requestColumn]
    rcases Nat.lt_succ_iff_lt_or_eq.mp hjk with hlt | rfl
    · apply Nat.le_succ_of_le
      apply Nat.le_of_succ_le
      exact h.byteColumn_add_two_le hlt (Nat.lt_of_succ_lt hk)
    · exact Nat.le_refl _

theorem readColumnOf_eq (h : pattern.Ordered) {k : Nat} (hk : k < pattern.bytesPerRow) :
    pattern.readColumnOf k = .ok (pattern.requestColumn k) := by
  cases k with
  | zero => rfl
  | succ k =>
    have hk' : k < pattern.bytesPerRow := by omega
    have hgrid := h.byteColumn_lt hk'
    simp only [byteColumn, gridColumns] at hgrid
    simp only [readColumnOf, getElem?_byteColumns hk', UInt16.size]
    rw [if_neg (by omega)]
    rfl

end Ordered

end Pattern

end InfoScreen
