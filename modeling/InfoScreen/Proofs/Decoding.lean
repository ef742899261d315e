import InfoScreen.Proofs.Splitting

/-!
# What an entry tells of its action

An entry says which byte its action requests, whether and where the action paints, and what it
paints.  All that it leaves out is the slot in which a fetched byte was requested, since the
hardware shows the byte that it holds.  So actions with equal entries ask for the same, although
slots that only read have the address and the value type of other slots, and one field holds the
offset of a request or the offset that is shown.
-/

namespace InfoScreen

/-- The cell of an address.  Rows do not wrap, as they do in `ofSlot`. -/
def Cell.ofAddress (address : Nat) : Cell := ⟨address / gridColumns, address % gridColumns⟩

theorem Cell.ofAddress_address {cell : Cell} (hcell : cell.col < gridColumns) :
    ofAddress cell.address = cell := by
  have hcolumns : 0 < gridColumns := Nat.zero_lt_of_lt hcell
  rw [ofAddress, address, Nat.mul_comm, Nat.mul_add_div hcolumns, Nat.mul_add_mod,
    Nat.div_eq_of_lt hcell, Nat.mod_eq_of_lt hcell, Nat.add_zero]

/-- The paint, with `readSlot` for the slot in which a fetched byte was requested. -/
def Paint.sourcedAt (readSlot : Nat) : Paint → Paint
  | literal byte => literal byte
  | fetched nibble _ => fetched nibble readSlot
  | cursorAddress nibble offset => cursorAddress nibble offset

theorem Paint.sourcedAt_comp (readSlot other : Nat) :
    sourcedAt readSlot ∘ sourcedAt other = sourcedAt readSlot := by
  funext paint
  cases paint <;> rfl

theorem Paint.fields_sourcedAt (readSlot : Nat) (paint : Option Paint) :
    fields (paint.map (sourcedAt readSlot)) = fields paint := by
  cases paint with
  | none => rfl
  | some paint =>
    cases paint with
    | literal byte => rfl
    | fetched nibble slot => cases nibble <;> rfl
    | cursorAddress nibble offset => rfl

/-- Two actions ask the hardware for the same. -/
structure Action.Agrees (a b : Action) : Prop where
  read : a.read = b.read
  /-- Both paint, and the same cell, or neither paints. -/
  target : a.target? = b.target?
  /-- Both paint the same, up to the slot in which a fetched byte was requested. -/
  paint : ∀ readSlot,
    a.paint.map (Paint.sourcedAt readSlot) = b.paint.map (Paint.sourcedAt readSlot)

theorem Action.agrees_iff {a b : Action} :
    a.Agrees b ↔ a.read = b.read ∧ a.target? = b.target? ∧
      a.paint.map (Paint.sourcedAt 0) = b.paint.map (Paint.sourcedAt 0) := by
  constructor
  · exact fun h ↦ ⟨h.read, h.target, h.paint 0⟩
  · intro ⟨hread, htarget, hpaint⟩
    refine ⟨hread, htarget, fun readSlot ↦ ?_⟩
    have hagain := congrArg (Option.map (Paint.sourcedAt readSlot)) hpaint
    simpa only [Option.map_map, Paint.sourcedAt_comp] using hagain

instance (a b : Action) : Decidable (a.Agrees b) := decidable_of_iff' _ Action.agrees_iff

namespace Entry

/-! ## Reading an entry -/

def read? (entry : Entry) : Option UInt32 :=
  if entry.memoryRead then some entry.secondary else none

def target? (entry : Entry) : Option Cell :=
  if entry.displayWrite then some (Cell.ofAddress entry.address) else none

/-- What an entry writes.  The slot in which a fetched byte was requested is not in the entry. -/
def paint? (readSlot : Nat) (entry : Entry) : Option Paint :=
  if entry.displayWrite then
    match entry.valueType with
    | .fetchedHigh => some (.fetched .high readSlot)
    | .fetchedLow => some (.fetched .low readSlot)
    | .literal => some (.literal entry.value)
    | .addressHigh => some (.cursorAddress .high entry.secondary)
    | .addressLow => some (.cursorAddress .low entry.secondary)
  else none

section Reading

variable {index : Nat} {action : Action} {entry : Entry}

theorem index_of_encode (h : encode index action = .ok entry) : entry.index = index := by
  rw [(encode_eq_ok_iff.mp h).2]

theorem read?_of_encode (h : encode index action = .ok entry) : entry.read? = action.read := by
  rw [read?, memoryRead_of_encode h]
  cases hread : action.read with
  | none => rfl
  | some offset => exact congrArg some (secondary_of_encode h hread)

theorem target?_of_encode (h : encode index action = .ok entry)
    (hcell : action.cell.col < gridColumns) : entry.target? = action.target? := by
  rw [target?, displayWrite_of_encode h, Action.target?]
  cases hpaint : action.paint with
  | none => rfl
  | some paint =>
    have haddress := address_of_encode h (by rw [hpaint]; rfl)
    rw [haddress, Cell.ofAddress_address hcell]
    rfl

theorem paint?_of_encode (h : encode index action = .ok entry) (readSlot : Nat) :
    entry.paint? readSlot = action.paint.map (Paint.sourcedAt readSlot) := by
  obtain ⟨honce, hentry⟩ := encode_eq_ok_iff.mp h
  rw [paint?, displayWrite_of_encode h]
  cases hpaint : action.paint with
  | none => rfl
  | some paint =>
    rw [hpaint] at honce hentry
    rw [hentry]
    cases paint with
    | literal byte => rfl
    | fetched nibble slot => cases nibble <;> rfl
    | cursorAddress nibble offset =>
      -- the secondary field is free for the offset that is shown
      have hread : action.read = none := by
        cases nibble <;> simpa [Paint.fields] using honce
      rw [hread]
      cases nibble <;> rfl

/-- The address of an entry is that of the cell it writes, and zero if it writes none. -/
theorem address_eq_getD (action : Action) :
    (if action.paint.isSome then action.cell.address else 0) =
      (action.target?.map Cell.address).getD 0 := by
  rw [Action.target?]
  cases action.paint <;> rfl

end Reading

variable {a b : Action} {index other : Nat} {entry : Entry}

/-- Actions with the same entry have it under the same index and ask for the same. -/
theorem agrees_of_encode (ha : a.cell.col < gridColumns) (hb : b.cell.col < gridColumns)
    (h : encode index a = .ok entry) (hother : encode other b = .ok entry) :
    index = other ∧ a.Agrees b := by
  refine ⟨?_, ?_, ?_, fun readSlot ↦ ?_⟩
  · rw [← index_of_encode h, index_of_encode hother]
  · rw [← read?_of_encode h, read?_of_encode hother]
  · rw [← target?_of_encode h ha, target?_of_encode hother hb]
  · rw [← paint?_of_encode h, paint?_of_encode hother]

/-- Actions that ask for the same have the same entry. -/
theorem encode_of_agrees (hsame : a.Agrees b) (h : encode index a = .ok entry) :
    encode index b = .ok entry := by
  have hfields : Paint.fields a.paint = Paint.fields b.paint := by
    calc
      Paint.fields a.paint = Paint.fields (a.paint.map (Paint.sourcedAt 0)) :=
        (Paint.fields_sourcedAt 0 a.paint).symm
      _ = Paint.fields (b.paint.map (Paint.sourcedAt 0)) := congrArg Paint.fields (hsame.paint 0)
      _ = Paint.fields b.paint := Paint.fields_sourcedAt 0 b.paint
  have hpaints : a.paint.isSome = b.paint.isSome := by
    simpa [Action.target?] using congrArg Option.isSome hsame.target
  rw [encode_eq_ok_iff, address_eq_getD] at h ⊢
  rwa [← hsame.read, ← hfields, ← hsame.target, ← hpaints]

/-- An action that does not show an address and read has an entry.  Another action on the grid has
the same entry just when the two ask for the same. -/
theorem encode_eq_encode_iff (ha : a.cell.col < gridColumns) (hb : b.cell.col < gridColumns)
    (honce : ∀ nibble offset, a.paint = some (.cursorAddress nibble offset) → a.read = none)
    (index other : Nat) :
    (∃ entry, encode index a = .ok entry) ∧
      (encode index a = encode other b ↔ index = other ∧ a.Agrees b) := by
  obtain ⟨entry, hentry⟩ := (Action.encodable_iff.mpr honce).encode_eq_ok index
  refine ⟨⟨entry, hentry⟩, fun h ↦ ?_, fun ⟨hindex, hsame⟩ ↦ ?_⟩
  · exact agrees_of_encode ha hb hentry (h ▸ hentry)
  · rw [hentry, ← hindex]
    exact (encode_of_agrees hsame hentry).symm

/-- Four actions whose entries agree in their addresses, values and secondary fields: a request, a
nibble, the same nibble together with the request, and a label. -/
def lookalikes : List Action := [
  ⟨0, ⟨0, 0⟩, 0, none, some 0⟩,
  ⟨0, ⟨0, 0⟩, 0, some (.fetched .high 4), none⟩,
  ⟨0, ⟨0, 0⟩, 0, some (.fetched .high 4), some 0⟩,
  ⟨0, ⟨0, 0⟩, 0, some (.cursorAddress .high 0), none⟩]

/-- The entries of the four differ, whereas a nibble of a byte that was requested in another slot
has the entry of the second. -/
theorem encode_eq_encode_iff_lookalikes :
    (∀ action ∈ lookalikes, action.cell.col < gridColumns) ∧
    (∀ action ∈ lookalikes, ∀ nibble offset,
      action.paint = some (.cursorAddress nibble offset) → action.read = none) ∧
    (lookalikes.Pairwise fun a b ↦ encode 5 a ≠ encode 5 b) ∧
    encode 5 ⟨0, ⟨0, 0⟩, 0, some (.fetched .high 4), none⟩ =
      encode 5 ⟨0, ⟨0, 0⟩, 0, some (.fetched .high 9), none⟩ := by
  have hcells : ∀ action ∈ lookalikes, action.cell.col < gridColumns := by decide
  have honce : ∀ action ∈ lookalikes, ∀ nibble offset,
      action.paint = some (.cursorAddress nibble offset) → action.read = none := by
    simp [lookalikes]
  have hunlike : lookalikes.Pairwise fun a b ↦ ¬a.Agrees b := by decide
  refine ⟨hcells, honce, hunlike.imp_of_mem ?_, ?_⟩
  · intro a b ha hb hab hequal
    have hiff := encode_eq_encode_iff (hcells a ha) (hcells b hb) (honce a ha) 5 5
    exact hab (hiff.2.mp hequal).2
  · have hiff := @encode_eq_encode_iff ⟨0, ⟨0, 0⟩, 0, some (.fetched .high 4), none⟩
      ⟨0, ⟨0, 0⟩, 0, some (.fetched .high 9), none⟩ (by decide) (by decide) (by simp) 5 5
    exact hiff.2.mpr (by decide)

end Entry

end InfoScreen
