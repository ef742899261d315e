import InfoScreen.Proofs.Schedulable

/-!
# What merging does to a slot

Scheduled actions are filed under their slots and captions are written over them.  If no two
actions share a slot and no two characters share a cell, each slot of the result can be described
on its own: a character decides what the slot paints, and the schedule alone decides what it reads.
-/

namespace InfoScreen

namespace SlotMap

def Filed (slots : SlotMap) : Prop :=
  ∀ (slot : Nat) (action : Action), slots[slot]? = some action → action.slot = slot

variable {slots : SlotMap}

theorem values_eq (slots : SlotMap) : slots.values = slots.toList.map Prod.snd := by
  change slots.foldr (fun _ action actions ↦ action :: actions) [] = _
  rw [Std.TreeMap.foldr_eq_foldr_toList]
  exact List.map_eq_foldr.symm

theorem mem_values_iff (hfiled : slots.Filed) (action : Action) :
    action ∈ slots.values ↔ slots[action.slot]? = some action := by
  rw [values_eq, List.mem_map]
  constructor
  · rintro ⟨⟨slot, action⟩, hmem, rfl⟩
    have hget := Std.TreeMap.mem_toList_iff_getElem?_eq_some.mp hmem
    rwa [hfiled slot action hget]
  · intro hget
    exact ⟨(action.slot, action), Std.TreeMap.mem_toList_iff_getElem?_eq_some.mpr hget, rfl⟩

/-- The actions of a map come in slot order. -/
theorem values_pairwise (hfiled : slots.Filed) :
    slots.values.Pairwise fun a b ↦ a.slot < b.slot := by
  rw [values_eq, List.pairwise_map]
  apply Std.TreeMap.ordered_keys_toList.imp_of_mem
  intro a b ha hb hlt
  have hslot := hfiled a.1 a.2 (Std.TreeMap.mem_toList_iff_getElem?_eq_some.mp ha)
  have hother := hfiled b.1 b.2 (Std.TreeMap.mem_toList_iff_getElem?_eq_some.mp hb)
  rw [hslot, hother]
  exact Nat.compare_eq_lt.mp hlt

theorem getElem?_add (slots : SlotMap) (action : Action) (slot : Nat) :
    (slots.add action)[slot]? =
      if action.isIdle = false ∧ action.slot = slot then some action else slots[slot]? := by
  unfold add
  cases hidle : action.isIdle with
  | true => simp
  | false => simp [Std.TreeMap.getElem?_insert]

theorem getElem?_foldl_add {scheduled : List Action}
    (hdistinct : scheduled.Pairwise fun a b ↦ a.slot ≠ b.slot) (slots : SlotMap) (slot : Nat)
    (action : Action) :
    (scheduled.foldl add slots)[slot]? = some action ↔
      (action ∈ scheduled ∧ action.isIdle = false ∧ action.slot = slot) ∨
        ((∀ other ∈ scheduled, other.isIdle = false → other.slot ≠ slot) ∧
          slots[slot]? = some action) := by
  induction scheduled generalizing slots with
  | nil => simp
  | cons first rest ih =>
    obtain ⟨hfirst, hrest⟩ := List.pairwise_cons.mp hdistinct
    rw [List.foldl_cons, ih hrest, getElem?_add]
    constructor
    · rintro (⟨hmem, hbusy, hslot⟩ | ⟨hothers, hget⟩)
      · exact .inl ⟨List.mem_cons_of_mem _ hmem, hbusy, hslot⟩
      · split at hget
        next hadded =>
          obtain rfl := Option.some.inj hget
          exact .inl ⟨List.mem_cons_self, hadded⟩
        next hadded =>
          refine .inr ⟨fun other hother hbusy ↦ ?_, hget⟩
          rcases List.mem_cons.mp hother with rfl | hother
          · exact fun hslot ↦ hadded ⟨hbusy, hslot⟩
          · exact hothers other hother hbusy
    · rintro (⟨hmem, hbusy, hslot⟩ | ⟨hothers, hget⟩)
      · rcases List.mem_cons.mp hmem with rfl | hmem
        · refine .inr ⟨fun other hother _ hsame ↦ ?_, by rw [if_pos ⟨hbusy, hslot⟩]⟩
          exact hfirst other hother (hslot.trans hsame.symm)
        · exact .inl ⟨hmem, hbusy, hslot⟩
      · refine .inr ⟨fun other hother ↦ hothers other (List.mem_cons_of_mem _ hother), ?_⟩
        rw [if_neg fun hadded ↦ hothers first List.mem_cons_self hadded.1 hadded.2]
        exact hget

/-! ## Writing the characters -/

variable {config : Config}

def put (config : Config) (slots : SlotMap) (literal : LiteralCell) : SlotMap :=
  slots.insert literal.cell.address
    { slots.getD literal.cell.address
        (Action.idle literal.cell (config.bankAt literal.cell.row)) with
      paint := some (.literal literal.byte) }

theorem foldlM_write_eq (hbank : ∀ row, config.bankOfRow row = .ok (config.bankAt row))
    (cells : List LiteralCell) (slots : SlotMap) :
    cells.foldlM (write config) slots = .ok (cells.foldl (put config) slots) := by
  induction cells generalizing slots with
  | nil => rfl
  | cons literal rest ih =>
    have hwrite : write config slots literal = .ok (put config slots literal) := by
      simp only [write, hbank, Outcome.ok_bind]
      rfl
    rw [List.foldlM_cons, hwrite, Outcome.ok_bind, ih, List.foldl_cons]

theorem getElem?_foldl_put {cells : List LiteralCell}
    (hdistinct : cells.Pairwise fun a b ↦ a.cell.address ≠ b.cell.address) (slots : SlotMap)
    (slot : Nat) (action : Action) :
    (cells.foldl (put config) slots)[slot]? = some action ↔
      (∃ literal ∈ cells, literal.cell.address = slot ∧ action =
        { slots.getD slot (Action.idle literal.cell (config.bankAt literal.cell.row)) with
          paint := some (.literal literal.byte) }) ∨
      ((∀ literal ∈ cells, literal.cell.address ≠ slot) ∧ slots[slot]? = some action) := by
  induction cells generalizing slots with
  | nil => simp
  | cons first rest ih =>
    obtain ⟨hfirst, hrest⟩ := List.pairwise_cons.mp hdistinct
    have hother : ∀ literal ∈ rest, ∀ fallback,
        (put config slots first).getD literal.cell.address fallback =
          slots.getD literal.cell.address fallback := by
      intro literal hliteral fallback
      rw [put, Std.TreeMap.getD_insert, if_neg]
      simpa using hfirst literal hliteral
    have hput : (put config slots first)[slot]? =
        if first.cell.address = slot then
          some { slots.getD slot (Action.idle first.cell (config.bankAt first.cell.row)) with
            paint := some (.literal first.byte) }
        else slots[slot]? := by
      rw [put, Std.TreeMap.getElem?_insert]
      by_cases hslot : first.cell.address = slot
      · simp [hslot]
      · simp [hslot]
    rw [List.foldl_cons, ih hrest, hput]
    constructor
    · rintro (⟨literal, hliteral, rfl, haction⟩ | ⟨hothers, hget⟩)
      · rw [hother literal hliteral] at haction
        exact .inl ⟨literal, List.mem_cons_of_mem _ hliteral, rfl, haction⟩
      · split at hget
        next hslot => exact .inl ⟨first, List.mem_cons_self, hslot, (Option.some.inj hget).symm⟩
        next hslot =>
          refine .inr ⟨fun literal hliteral ↦ ?_, hget⟩
          rcases List.mem_cons.mp hliteral with rfl | hliteral
          · exact hslot
          · exact hothers literal hliteral
    · rintro (⟨literal, hliteral, rfl, haction⟩ | ⟨hothers, hget⟩)
      · rcases List.mem_cons.mp hliteral with rfl | hliteral
        · refine .inr ⟨fun other hother ↦ (hfirst other hother).symm, ?_⟩
          rw [if_pos rfl, haction]
        · rw [← hother literal hliteral] at haction
          exact .inl ⟨literal, hliteral, rfl, haction⟩
      · refine .inr ⟨fun literal hliteral ↦ hothers literal (List.mem_cons_of_mem _ hliteral), ?_⟩
        rw [if_neg (hothers first List.mem_cons_self)]
        exact hget

/-! ## The merged actions -/

/-- The scheduled actions with the characters of a layout written over them. -/
def merged (config : Config) (layout : Layout) (scheduled : List Action) : SlotMap :=
  layout.cells.foldl (put config) (scheduled.foldl add ∅)

theorem merge_eq_ok (hbank : ∀ row, config.bankOfRow row = .ok (config.bankAt row))
    (layout : Layout) (scheduled : List Action) :
    merge scheduled layout config = .ok (merged config layout scheduled).values := by
  simp only [merge, foldlM_write_eq hbank, Outcome.ok_bind]
  rfl

variable {layout : Layout} {scheduled : List Action} {slot : Nat} {action : Action}

theorem getElem?_scheduled (hscheduled : scheduled.Pairwise fun a b ↦ a.slot ≠ b.slot) :
    (scheduled.foldl add ∅)[slot]? = some action ↔
      action ∈ scheduled ∧ action.isIdle = false ∧ action.slot = slot := by
  rw [getElem?_foldl_add hscheduled]
  simp

/-- A slot holds a character over what the schedule does there, or what the schedule does. -/
theorem getElem?_merged (hcells : layout.cells.Pairwise fun a b ↦ a.cell.address ≠ b.cell.address)
    (hscheduled : scheduled.Pairwise fun a b ↦ a.slot ≠ b.slot) :
    (merged config layout scheduled)[slot]? = some action ↔
      (∃ literal ∈ layout.cells, literal.cell.address = slot ∧ ∃ base,
        (base ∈ scheduled ∧ base.isIdle = false ∧ base.slot = slot ∨
          (∀ other ∈ scheduled, other.isIdle = false → other.slot ≠ slot) ∧
            base = Action.idle literal.cell (config.bankAt literal.cell.row)) ∧
        action = { base with paint := some (.literal literal.byte) }) ∨
      ((∀ literal ∈ layout.cells, literal.cell.address ≠ slot) ∧
        action ∈ scheduled ∧ action.isIdle = false ∧ action.slot = slot) := by
  have hbase : ∀ fallback base : Action,
      (scheduled.foldl add ∅).getD slot fallback = base ↔
        (base ∈ scheduled ∧ base.isIdle = false ∧ base.slot = slot ∨
          (∀ other ∈ scheduled, other.isIdle = false → other.slot ≠ slot) ∧ base = fallback) := by
    intro fallback base
    rw [Std.TreeMap.getD_eq_getD_getElem?]
    cases hget : (scheduled.foldl add ∅)[slot]? with
    | none =>
      have hnone : ∀ other ∈ scheduled, other.isIdle = false → other.slot ≠ slot := by
        intro other hother hbusy hslot
        have hsome := (getElem?_scheduled hscheduled).mpr ⟨hother, hbusy, hslot⟩
        rw [hget] at hsome
        cases hsome
      rw [Option.getD_none]
      constructor
      · rintro rfl
        exact .inr ⟨hnone, rfl⟩
      · rintro (⟨hother, hbusy, hslot⟩ | ⟨-, rfl⟩)
        · exact absurd hslot (hnone base hother hbusy)
        · rfl
    | some found =>
      have hfound := (getElem?_scheduled hscheduled).mp hget
      rw [Option.getD_some]
      constructor
      · rintro rfl
        exact .inl hfound
      · rintro (hother | ⟨hnone, -⟩)
        · have hsame := (getElem?_scheduled hscheduled).mpr hother
          exact Option.some.inj (hget.symm.trans hsame)
        · exact absurd hfound.2.2 (hnone found hfound.1 hfound.2.1)
  rw [merged, getElem?_foldl_put hcells, getElem?_scheduled hscheduled]
  refine or_congr_left (exists_congr fun literal ↦ and_congr_right fun _ ↦
    and_congr_right fun _ ↦ ?_)
  constructor
  · rintro rfl
    exact ⟨_, (hbase _ _).mp rfl, rfl⟩
  · rintro ⟨base, hholds, rfl⟩
    rw [(hbase _ base).mpr hholds]

section Laws

variable (hcells : layout.cells.Pairwise fun a b ↦ a.cell.address ≠ b.cell.address)
  (hscheduled : scheduled.Pairwise fun a b ↦ a.slot ≠ b.slot)

include hcells hscheduled

theorem filed_merged (config : Config) : (merged config layout scheduled).Filed := by
  intro slot action hget
  rcases (getElem?_merged hcells hscheduled).mp hget with
    ⟨literal, -, rfl, base, ⟨-, -, hslot⟩ | ⟨-, rfl⟩, rfl⟩ | ⟨-, -, -, hslot⟩
  · exact hslot
  · rfl
  · exact hslot

theorem mem_merged_iff (action : Action) : action ∈ (merged config layout scheduled).values ↔
    (∃ literal ∈ layout.cells, literal.cell.address = action.slot ∧ ∃ base,
      (base ∈ scheduled ∧ base.isIdle = false ∧ base.slot = action.slot ∨
        (∀ other ∈ scheduled, other.isIdle = false → other.slot ≠ action.slot) ∧
          base = Action.idle literal.cell (config.bankAt literal.cell.row)) ∧
      action = { base with paint := some (.literal literal.byte) }) ∨
    ((∀ literal ∈ layout.cells, literal.cell.address ≠ action.slot) ∧
      action ∈ scheduled ∧ action.isIdle = false) := by
  rw [mem_values_iff (filed_merged hcells hscheduled config), getElem?_merged hcells hscheduled]
  simp only [and_true]

/-- Merging keeps whatever holds of the scheduled actions and of the idle slots under captions, if
it does not depend on what is painted. -/
theorem forall_mem_merged {P : Action → Prop}
    (hpaint : ∀ action paint, P action → P { action with paint := paint })
    (hbase : ∀ action ∈ scheduled, P action)
    (hidle : ∀ literal ∈ layout.cells,
      P (Action.idle literal.cell (config.bankAt literal.cell.row))) :
    ∀ action ∈ (merged config layout scheduled).values, P action := by
  intro action haction
  rcases (mem_merged_iff hcells hscheduled action).mp haction with
    ⟨literal, hliteral, -, base, ⟨hmem, -, -⟩ | ⟨-, rfl⟩, hpainted⟩ | ⟨-, hmem, -⟩
  · rw [hpainted]
    exact hpaint base _ (hbase base hmem)
  · rw [hpainted]
    exact hpaint _ _ (hidle literal hliteral)
  · exact hbase action hmem

theorem exists_merged_iff (P : Action → Prop) :
    (∃ action ∈ (merged config layout scheduled).values, action.slot = slot ∧ P action) ↔
      ∃ action, (merged config layout scheduled)[slot]? = some action ∧ P action := by
  have hfiled := filed_merged hcells hscheduled config
  constructor
  · rintro ⟨action, haction, rfl, hP⟩
    exact ⟨action, (mem_values_iff hfiled action).mp haction, hP⟩
  · rintro ⟨action, hget, hP⟩
    obtain rfl := hfiled slot action hget
    exact ⟨action, (mem_values_iff hfiled action).mpr hget, rfl, hP⟩

/-- A slot reads what it was scheduled to read. -/
theorem read_merged_iff (offset : UInt32) :
    (∃ action ∈ (merged config layout scheduled).values,
        action.slot = slot ∧ action.read = some offset) ↔
      ∃ action ∈ scheduled, action.slot = slot ∧ action.read = some offset := by
  rw [exists_merged_iff hcells hscheduled]
  constructor
  · rintro ⟨action, hget, hread⟩
    rcases (getElem?_merged hcells hscheduled).mp hget with
      ⟨literal, -, -, base, ⟨hbase, -, hslot⟩ | ⟨-, rfl⟩, rfl⟩ | ⟨-, haction, -, hslot⟩
    · exact ⟨base, hbase, hslot, hread⟩
    · cases hread
    · exact ⟨action, haction, hslot, hread⟩
  · rintro ⟨action, haction, hslot, hread⟩
    have hbusy : action.isIdle = false := by simp [Action.isIdle, hread]
    by_cases hliteral : ∃ literal ∈ layout.cells, literal.cell.address = slot
    · obtain ⟨literal, hmem, haddress⟩ := hliteral
      refine ⟨{ action with paint := some (.literal literal.byte) }, ?_, hread⟩
      apply (getElem?_merged hcells hscheduled).mpr
      exact .inl ⟨literal, hmem, haddress, action, .inl ⟨haction, hbusy, hslot⟩, rfl⟩
    · have hfree : ∀ literal ∈ layout.cells, literal.cell.address ≠ slot :=
        fun literal hmem haddress ↦ hliteral ⟨literal, hmem, haddress⟩
      refine ⟨action, ?_, hread⟩
      apply (getElem?_merged hcells hscheduled).mpr
      exact .inr ⟨hfree, haction, hbusy, hslot⟩

/-- A slot paints the character on it, or else what it was scheduled to paint. -/
theorem paint_merged_iff (paint : Paint) :
    (∃ action ∈ (merged config layout scheduled).values,
        action.slot = slot ∧ action.paint = some paint) ↔
      (∃ literal ∈ layout.cells, literal.cell.address = slot ∧ paint = .literal literal.byte) ∨
        ((∀ literal ∈ layout.cells, literal.cell.address ≠ slot) ∧
          ∃ action ∈ scheduled, action.slot = slot ∧ action.paint = some paint) := by
  rw [exists_merged_iff hcells hscheduled]
  constructor
  · rintro ⟨action, hget, hpaint⟩
    rcases (getElem?_merged hcells hscheduled).mp hget with
      ⟨literal, hmem, haddress, base, -, rfl⟩ | ⟨hfree, haction, -, hslot⟩
    · exact .inl ⟨literal, hmem, haddress, (Option.some.inj hpaint).symm⟩
    · exact .inr ⟨hfree, action, haction, hslot, hpaint⟩
  · rintro (⟨literal, hmem, haddress, rfl⟩ | ⟨hfree, action, haction, hslot, hpaint⟩)
    · by_cases hbusy : ∃ base ∈ scheduled, base.isIdle = false ∧ base.slot = slot
      · obtain ⟨base, hbase⟩ := hbusy
        refine ⟨{ base with paint := some (.literal literal.byte) }, ?_, rfl⟩
        apply (getElem?_merged hcells hscheduled).mpr
        exact .inl ⟨literal, hmem, haddress, base, .inl hbase, rfl⟩
      · have hnone : ∀ other ∈ scheduled, other.isIdle = false → other.slot ≠ slot :=
          fun other hother hother' hslot ↦ hbusy ⟨other, hother, hother', hslot⟩
        refine ⟨{ Action.idle literal.cell (config.bankAt literal.cell.row) with
          paint := some (.literal literal.byte) }, ?_, rfl⟩
        apply (getElem?_merged hcells hscheduled).mpr
        exact .inl ⟨literal, hmem, haddress, _, .inr ⟨hnone, rfl⟩, rfl⟩
    · have hbusy : action.isIdle = false := by simp [Action.isIdle, hpaint]
      refine ⟨action, ?_, hpaint⟩
      apply (getElem?_merged hcells hscheduled).mpr
      exact .inr ⟨hfree, haction, hbusy, hslot⟩

end Laws

end SlotMap

namespace Action

/-- The action is in the slot of its cell, on the grid, and in the bank of its row. -/
structure InPlace (config : Config) (action : Action) : Prop where
  slot_eq : action.slot = action.cell.address
  col_lt : action.cell.col < gridColumns
  bank_eq : action.bank = config.bankAt action.cell.row

end Action

namespace Config.Schedulable

variable {config : Config} {layout : Layout} {scheduled : List Action}

theorem merge_eq (h : config.Schedulable layout) (scheduled : List Action) :
    merge scheduled layout config = .ok (SlotMap.merged config layout scheduled).values :=
  SlotMap.merge_eq_ok h.bankOfRow_eq layout scheduled

/-- Merging leaves actions in place. -/
theorem inPlace_merged (h : config.Schedulable layout)
    (hscheduled : scheduled.Pairwise fun a b ↦ a.slot ≠ b.slot)
    (hplace : ∀ action ∈ scheduled, action.InPlace config) :
    ∀ action ∈ (SlotMap.merged config layout scheduled).values, action.InPlace config := by
  apply SlotMap.forall_mem_merged (P := Action.InPlace config)
    (Layout.ofCaptions_distinct h.layout_eq) hscheduled
  · intro action paint hplace
    exact ⟨hplace.slot_eq, hplace.col_lt, hplace.bank_eq⟩
  · exact hplace
  · intro literal hliteral
    exact ⟨rfl, Layout.ofCaptions_col_lt h.layout_eq literal hliteral, rfl⟩

end Config.Schedulable

end InfoScreen
