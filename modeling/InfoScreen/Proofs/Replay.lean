import InfoScreen.Proofs.SingleBuffered
import InfoScreen.Proofs.Table

/-!
# The screen that the tables produce

The hardware replays the entries of a bank in order.  It holds the byte read last, and an entry
that shows a byte does not say which one.  Since the actions keep to the protocol of the memory
port, the byte held is always the one meant; so all banks together write exactly the picture that
the configuration describes, every cell of it once.
-/

namespace InfoScreen

inductive Shown where
  | character (byte : UInt8)
  /-- A nibble of the byte at an offset. -/
  | byteNibble (nibble : Nibble) (offset : Nat)
  /-- A nibble of a display address. -/
  | addressNibble (nibble : Nibble) (offset : Nat)
  deriving DecidableEq

/-- What an entry shows while the byte at offset `held` is held, if any is. -/
def Entry.shows? (held : Option Nat) (entry : Entry) : Option Shown :=
  match entry.valueType with
  | .literal => some (.character entry.value)
  | .fetchedHigh => held.map (.byteNibble .high)
  | .fetchedLow => held.map (.byteNibble .low)
  | .addressHigh => some (.addressNibble .high entry.secondary.toNat)
  | .addressLow => some (.addressNibble .low entry.secondary.toNat)

/-- Replays entries in order: an entry that writes records what it shows, and after that an entry
that reads replaces the byte held.  There is no replay if a byte is to be shown and none is held. -/
def replay (held : Option Nat) : List Entry → Option (List (Nat × Shown))
  | [] => some []
  | entry :: rest => do
    let written ←
      if entry.displayWrite then (entry.shows? held).map fun shown ↦ [(entry.address, shown)]
      else some []
    let following ← replay (if entry.memoryRead then some entry.secondary.toNat else held) rest
    some (written ++ following)

def Bank.replayed? (bank : Bank) : Option (List (Nat × Shown)) := replay none bank.entries.toList

def Tables.written (tables : Tables) : List (Nat × Shown) :=
  tables.banks.flatMap fun bank ↦ bank.replayed?.getD []

/-- The picture that a configuration describes: what is shown at which address. -/
inductive Config.Pictures (config : Config) : Nat → Shown → Prop
  | caption {caption : Caption} (hcaption : caption ∈ config.captions) {j : Nat} {c : Char}
      (hc : caption.text.toList[j]? = some c) :
      Pictures config (⟨caption.row.toNat, caption.col.toNat + j⟩ : Cell).address
        (.character c.toUInt8)
  | nibble {i k : Nat} (hvisible : config.Visible i k) (nibble : Nibble) :
      Pictures config (config.nibbleCell i k nibble).address
        (.byteNibble nibble (config.offset i k))
  | label {i : Nat} (hrow : i < config.rowCount.toNat) (hon : config.addressLabels = true)
      {nibble : Nibble} (hcaptioned : ¬config.Captioned (config.labelCell i nibble)) :
      Pictures config (config.labelCell i nibble).address
        (.addressNibble nibble (config.offset i 0))

/-! ## Replaying the entries of some actions -/

def Paint.shown (offsetAt : Nat → Nat) : Paint → Shown
  | .literal byte => .character byte
  | .fetched nibble readSlot => .byteNibble nibble (offsetAt readSlot)
  | .cursorAddress nibble offset => .addressNibble nibble offset.toNat

def Action.writes? (offsetAt : Nat → Nat) (action : Action) : Option (Nat × Shown) :=
  action.paint.map fun paint ↦ (action.cell.address, paint.shown offsetAt)

/-- After the actions `past`, the byte of the latest request is held. -/
def Holds (past : List Action) (held : Option Nat) : Prop :=
  ∀ read ∈ past, ∀ offset, read.read = some offset →
    (∀ other ∈ past, other.read.isSome → other.slot ≤ read.slot) → held = some offset.toNat

def offsetIn (actions : List Action) (slot : Nat) : Nat :=
  (((actions.find? fun action ↦ action.slot = slot).bind Action.read).getD 0).toNat

section Replay

variable {actions : List Action} {action : Action} {index : Nat} {entry : Entry}
  {held : Option Nat} {offsetAt : Nat → Nat}

theorem offsetIn_eq (hordered : actions.Pairwise fun a b ↦ a.slot < b.slot)
    (haction : action ∈ actions) {offset : UInt32} (hread : action.read = some offset) :
    offsetIn actions action.slot = offset.toNat := by
  have hfind : (actions.find? fun other ↦ other.slot = action.slot) = some action := by
    cases hfound : actions.find? fun other ↦ other.slot = action.slot with
    | none => simpa using List.find?_eq_none.mp hfound action haction
    | some other =>
      have hslot : other.slot = action.slot := by simpa using List.find?_some hfound
      have hother := List.mem_of_find?_eq_some hfound
      exact congrArg some (Action.eq_of_slot_eq hordered hother haction hslot)
  rw [offsetIn, hfind, Option.bind_some, hread]
  rfl

/-- An entry shows what its action paints, if the byte held is the one that the paint names. -/
theorem shows?_of_encode (hentry : Entry.encode index action = .ok entry) {paint : Paint}
    (hpaint : action.paint = some paint)
    (hheld : ∀ nibble readSlot, paint = .fetched nibble readSlot →
      held = some (offsetAt readSlot)) :
    entry.shows? held = some (paint.shown offsetAt) := by
  obtain ⟨honce, rfl⟩ := Entry.encode_eq_ok_iff.mp hentry
  rw [hpaint] at honce
  simp only [Entry.shows?, hpaint]
  cases paint with
  | literal byte => rfl
  | fetched nibble readSlot =>
    rw [hheld nibble readSlot rfl]
    cases nibble <;> rfl
  | cursorAddress nibble offset =>
    have hnone : action.read = none := by
      cases nibble <;> simpa [Paint.fields] using honce
    rw [hnone]
    cases nibble <;> rfl

/-- What is held after one more action. -/
theorem Holds.step {past : List Action} (hholds : Holds past held)
    (hlast : ∀ other ∈ past, other.slot < action.slot)
    (hentry : Entry.encode index action = .ok entry) :
    Holds (past ++ [action])
      (if entry.memoryRead then some entry.secondary.toNat else held) := by
  intro read hread offset hoffset hlatest
  rw [Entry.memoryRead_of_encode hentry]
  rcases List.mem_append.mp hread with hpast | hnew
  · have hidle : action.read.isSome = false := by
      rw [← Bool.not_eq_true]
      intro hsome
      have hle := hlatest action (by simp) hsome
      have hlt := hlast read hpast
      omega
    rw [if_neg (by simp [hidle])]
    exact hholds read hpast offset hoffset fun other hother ↦
      hlatest other (List.mem_append_left _ hother)
  · obtain rfl := List.mem_singleton.mp hnew
    rw [if_pos (by simp [hoffset]), Entry.secondary_of_encode hentry hoffset]

/-- The entries of actions that keep to the protocol are replayed to the end, and write what the
actions paint. -/
theorem replay_eq (past : List Action) {future : List Action} {start : Nat} {entries : List Entry}
    (hentries : List.Forall₂ Entry.Encodes
      (future.zipIdx start) entries)
    (hordered : (past ++ future).Pairwise fun a b ↦ a.slot < b.slot) (hholds : Holds past held)
    (hsource : ∀ action ∈ future, ∀ nibble readSlot,
      action.paint = some (.fetched nibble readSlot) → ∃ read ∈ past ++ future,
        read.slot = readSlot ∧ readSlot < action.slot ∧
        (∃ offset, read.read = some offset ∧ offset.toNat = offsetAt readSlot) ∧
        ∀ other ∈ past ++ future, other.read.isSome → other.slot < action.slot →
          other.slot ≤ readSlot) :
    replay held entries = some (future.filterMap (Action.writes? offsetAt)) := by
  induction future generalizing past held start entries with
  | nil =>
    cases hentries
    rfl
  | cons action future ih =>
    rw [List.zipIdx_cons] at hentries
    cases hentries with
    | @cons _ entry _ entries hentry hentries =>
      have hsplit : past ++ action :: future = (past ++ [action]) ++ future := by simp
      obtain ⟨-, hfuture, hacross⟩ := List.pairwise_append.mp hordered
      have hlast : ∀ other ∈ past, other.slot < action.slot :=
        fun other hother ↦ hacross other hother action List.mem_cons_self
      -- a byte to be shown was requested in the past, and nothing has been requested since
      have hheld : ∀ paint, action.paint = some paint → ∀ nibble readSlot,
          paint = .fetched nibble readSlot → held = some (offsetAt readSlot) := by
        rintro _ hpaint nibble readSlot rfl
        obtain ⟨read, hread, rfl, hearlier, ⟨offset, hoffset, hexact⟩, hlatest⟩ :=
          hsource action List.mem_cons_self nibble readSlot hpaint
        have hpast : read ∈ past := by
          rcases List.mem_append.mp hread with hpast | hrest
          · exact hpast
          · rcases List.mem_cons.mp hrest with rfl | hlater
            · exact absurd hearlier (Nat.lt_irrefl _)
            · have hlt := (List.pairwise_cons.mp hfuture).1 read hlater
              omega
        rw [← hexact]
        exact hholds read hpast offset hoffset fun other hother hsome ↦
          hlatest other (List.mem_append_left _ hother) hsome (hlast other hother)
      have hrest := ih (past ++ [action]) hentries (hsplit ▸ hordered) (hholds.step hlast hentry)
        (fun other hother ↦ hsplit ▸ hsource other (List.mem_cons_of_mem _ hother))
      rw [replay, Entry.displayWrite_of_encode hentry, hrest]
      cases hpaint : action.paint with
      | none =>
        rw [List.filterMap_cons_none (by rw [Action.writes?, hpaint, Option.map_none])]
        rfl
      | some paint =>
        rw [List.filterMap_cons_some (by rw [Action.writes?, hpaint, Option.map_some]),
          shows?_of_encode hentry hpaint (hheld paint hpaint),
          Entry.address_of_encode hentry (by simp [hpaint])]
        rfl

end Replay

namespace Screen

variable {config : Config} {screen : Screen} {tables : Tables}

/-- The replay of one bank comes to its end and writes what the actions of the bank paint. -/
theorem replayed_bank (h : ofConfig config = .ok screen) {number start : Nat}
    {entries : List Entry}
    (hentries : List.Forall₂ Entry.Encodes
      (((config.mergedActions screen.layout).filter (·.bank = number)).zipIdx start) entries) :
    (⟨number, entries.toArray⟩ : Bank).replayed? =
      some (((config.mergedActions screen.layout).filter (·.bank = number)).filterMap
        (Action.writes? (offsetIn (config.mergedActions screen.layout)))) := by
  have htraffic := (schedulable h).traffic_merged
  have hordered := htraffic.ordered
  apply replay_eq [] hentries (hordered.filter _) (by simp [Holds])
  intro action haction nibble readSlot hpaint
  obtain ⟨haction, hbank⟩ := List.mem_filter.mp haction
  obtain ⟨read, hread, rfl, hsome, hsame, hlatency, hlatest, -⟩ :=
    htraffic.source (schedulable h) haction hpaint
  obtain ⟨offset, hoffset⟩ := Option.isSome_iff_exists.mp hsome
  have hpos : 0 < nibble.latency := by cases nibble <;> decide
  refine ⟨read, ?_, rfl, by omega, ⟨offset, hoffset, (offsetIn_eq hordered hread hoffset).symm⟩, ?_⟩
  · exact List.mem_filter.mpr ⟨hread, by simpa [hsame] using hbank⟩
  · intro other hother
    exact hlatest other (List.mem_filter.mp hother).1

/-- All replays come to their end, and what they write is known bank by bank. -/
theorem written_eq (h : ofConfig config = .ok screen) (hcompile : screen.compile = .ok tables) :
    (∀ bank ∈ tables.banks, bank.replayed?.isSome) ∧
      tables.written = (List.range config.bankCount).flatMap fun number ↦
        ((config.mergedActions screen.layout).filter (·.bank = number)).filterMap
          (Action.writes? (offsetIn (config.mergedActions screen.layout))) := by
  have hreplayed := Bank.map_split_eq (compile_eq_ok h hcompile).1 (f := Bank.replayed?)
    fun _ _ _ _ hentries ↦ replayed_bank h hentries
  constructor
  · intro bank hbank
    have hmem := List.mem_map_of_mem (f := Bank.replayed?) hbank
    rw [hreplayed] at hmem
    obtain ⟨number, -, hnumber⟩ := List.mem_map.mp hmem
    rw [← hnumber, Option.isSome_some]
  · calc
      tables.written = ((tables.banks.map Bank.replayed?).map (·.getD [])).flatten := by
        rw [Tables.written, List.flatMap_def, List.map_map]
        rfl
      _ = _ := by
        rw [hreplayed, List.flatMap_def, List.map_map]
        rfl

/-- What an action writes is at the address of its slot. -/
theorem writes?_eq_some_iff {offsetAt : Nat → Nat} {action : Action}
    (hplace : action.InPlace config) {address : Nat} {shown : Shown} :
    action.writes? offsetAt = some (address, shown) ↔
      action.slot = address ∧
        ∃ paint, action.paint = some paint ∧ paint.shown offsetAt = shown := by
  rw [Action.writes?, Option.map_eq_some_iff, hplace.slot_eq]
  constructor
  · rintro ⟨paint, hpaint, hwritten⟩
    obtain ⟨haddress, hshown⟩ := Prod.mk.inj hwritten
    exact ⟨haddress, paint, hpaint, hshown⟩
  · rintro ⟨rfl, paint, hpaint, rfl⟩
    exact ⟨paint, hpaint, rfl⟩

/-- No address is written twice, within a bank or by two banks. -/
theorem written_nodup (h : ofConfig config = .ok screen) (hcompile : screen.compile = .ok tables) :
    (tables.written.map Prod.fst).Nodup := by
  have htraffic := (schedulable h).traffic_merged
  rw [(written_eq h hcompile).2]
  refine List.pairwise_map.mpr (List.pairwise_flatMap.mpr ⟨fun number _ ↦ ?_, ?_⟩)
  · refine List.pairwise_filterMap.mpr ((htraffic.ordered.filter _).imp_of_mem ?_)
    rintro a b ha hb hlt ⟨address, shown⟩ hwritten ⟨address', shown'⟩ hwritten'
    have hplace := htraffic.inPlace a (List.mem_filter.mp ha).1
    have hplace' := htraffic.inPlace b (List.mem_filter.mp hb).1
    obtain ⟨rfl, -⟩ := (writes?_eq_some_iff hplace).mp hwritten
    obtain ⟨rfl, -⟩ := (writes?_eq_some_iff hplace').mp hwritten'
    exact Nat.ne_of_lt hlt
  · apply List.pairwise_lt_range.imp
    intro number number' hlt
    rintro ⟨address, shown⟩ hmem ⟨address', shown'⟩ hmem' hsame
    obtain ⟨a, ha, hwritten⟩ := List.mem_filterMap.mp hmem
    obtain ⟨b, hb, hwritten'⟩ := List.mem_filterMap.mp hmem'
    obtain ⟨ha, hbank⟩ := List.mem_filter.mp ha
    obtain ⟨hb, hbank'⟩ := List.mem_filter.mp hb
    obtain ⟨hslot, -⟩ := (writes?_eq_some_iff (htraffic.inPlace a ha)).mp hwritten
    obtain ⟨hslot', -⟩ := (writes?_eq_some_iff (htraffic.inPlace b hb)).mp hwritten'
    obtain rfl := Action.eq_of_slot_eq htraffic.ordered ha hb (by
      rw [hslot, hslot']
      exact hsame)
    rw [decide_eq_true_eq] at hbank hbank'
    omega

/-- What is written is what the merged actions paint. -/
theorem mem_written_iff (h : ofConfig config = .ok screen)
    (hcompile : screen.compile = .ok tables) (address : Nat) (shown : Shown) :
    (address, shown) ∈ tables.written ↔ ∃ paint : Paint,
      (∃ action ∈ config.mergedActions screen.layout,
        action.slot = address ∧ action.paint = some paint) ∧
      paint.shown (offsetIn (config.mergedActions screen.layout)) = shown := by
  have htraffic := (schedulable h).traffic_merged
  rw [(written_eq h hcompile).2, List.mem_flatMap]
  constructor
  · rintro ⟨number, -, hmem⟩
    obtain ⟨action, haction, hwritten⟩ := List.mem_filterMap.mp hmem
    obtain ⟨haction, -⟩ := List.mem_filter.mp haction
    obtain ⟨hslot, paint, hpaint, hshown⟩ :=
      (writes?_eq_some_iff (htraffic.inPlace action haction)).mp hwritten
    exact ⟨paint, ⟨action, haction, hslot, hpaint⟩, hshown⟩
  · rintro ⟨paint, ⟨action, haction, hslot, hpaint⟩, hshown⟩
    have hbank := htraffic.bank_lt (schedulable h) haction
    refine ⟨action.bank, List.mem_range.mpr hbank, ?_⟩
    apply List.mem_filterMap.mpr
    refine ⟨action, List.mem_filter.mpr ⟨haction, by simp⟩, ?_⟩
    apply (writes?_eq_some_iff (htraffic.inPlace action haction)).mpr
    exact ⟨hslot, paint, hpaint, hshown⟩

/-- The byte of a request is the one at its offset. -/
theorem offsetIn_requestCell (h : ofConfig config = .ok screen) {i k : Nat}
    (hvisible : config.Visible i k) :
    offsetIn (config.mergedActions screen.layout) (config.requestCell i k).address =
      config.offset i k := by
  have htraffic := (schedulable h).traffic_merged
  obtain ⟨read, hread, hslot, hoffset⟩ := htraffic.exists_read hvisible
  calc
    offsetIn (config.mergedActions screen.layout) (config.requestCell i k).address =
        offsetIn (config.mergedActions screen.layout) read.slot := by rw [hslot]
    _ = (UInt32.ofNat (config.offset i k)).toNat := offsetIn_eq htraffic.ordered hread hoffset
    _ = config.offset i k := by
      apply UInt32.toNat_ofNat_of_lt'
      exact offset_lt h hvisible.row_lt hvisible.byte_lt

/-- The tables of an accepted configuration, replayed bank by bank, draw the picture that the
configuration describes: no entry shows a byte while none is held, no address is written twice, and
what is written is exactly the picture. -/
theorem written_iff_pictures (h : ofConfig config = .ok screen)
    (hcompile : screen.compile = .ok tables) :
    (∀ bank ∈ tables.banks, bank.replayed?.isSome) ∧ (tables.written.map Prod.fst).Nodup ∧
      ∀ address shown, (address, shown) ∈ tables.written ↔ config.Pictures address shown := by
  have hschedulable := schedulable h
  have hlabel : ∀ i < config.rowCount.toNat,
      (UInt32.ofNat (config.offset i 0)).toNat = config.offset i 0 :=
    fun i hi ↦ UInt32.toNat_ofNat_of_lt' (offset_lt h hi hschedulable.sound.bytes_pos)
  refine ⟨(written_eq h hcompile).1, written_nodup h hcompile, fun address shown ↦ ?_⟩
  simp only [mem_written_iff h hcompile, hschedulable.paint_mergedActions_iff]
  constructor
  · rintro ⟨paint, ⟨literal, hliteral, rfl, rfl⟩ | ⟨i, hi, col, rfl, hshows⟩, rfl⟩
    · rw [Layout.ofCaptions_cells hschedulable.layout_eq, List.mem_flatMap] at hliteral
      obtain ⟨caption, hcaption, hliteral⟩ := hliteral
      obtain ⟨j, c, hc, rfl⟩ := (caption.mem_cells_iff literal).mp hliteral
      exact .caption hcaption hc
    · cases hshows with
      | @nibble k nibble hk hmasked =>
        have hvisible : config.Visible i k := ⟨hi, hk, hmasked⟩
        rw [Paint.shown, offsetIn_requestCell h hvisible]
        exact .nibble hvisible nibble
      | label hon hcovered =>
        rw [Paint.shown, hlabel i hi]
        exact .label hi hon hcovered
  · intro hpictures
    cases hpictures with
    | @caption caption hcaption j c hc =>
      refine ⟨.literal c.toUInt8, .inl ⟨⟨⟨caption.row.toNat, caption.col.toNat + j⟩, c.toUInt8⟩,
        ?_, rfl, rfl⟩, rfl⟩
      rw [Layout.ofCaptions_cells hschedulable.layout_eq, List.mem_flatMap]
      exact ⟨caption, hcaption, (caption.mem_cells_iff _).mpr ⟨j, c, hc, rfl⟩⟩
    | @nibble i k hvisible nibble =>
      refine ⟨.fetched nibble (config.requestCell i k).address, .inr ⟨i, hvisible.row_lt,
        config.pattern.nibbleColumn k nibble, rfl,
        .nibble hvisible.byte_lt hvisible.unmasked⟩, ?_⟩
      rw [Paint.shown, offsetIn_requestCell h hvisible]
    | @label i hrow hon nibble hcaptioned =>
      refine ⟨.cursorAddress nibble (UInt32.ofNat (config.offset i 0)), .inr ⟨i, hrow,
        config.pattern.labelColumn nibble, rfl, .label hon hcaptioned⟩, ?_⟩
      rw [Paint.shown, hlabel i hrow]

theorem written_iff_pictures_sample : ∃ tables, ofConfig .sample = .ok sample ∧
    sample.compile = .ok tables ∧ (∀ bank ∈ tables.banks, bank.replayed?.isSome) ∧
      (tables.written.map Prod.fst).Nodup ∧
      ∀ address shown,
        (address, shown) ∈ tables.written ↔ Config.sample.Pictures address shown := by
  have hcompiled : sample.compile.toBool = true := by decide +kernel
  cases hcompile : sample.compile with
  | error failure =>
    rw [hcompile] at hcompiled
    cases hcompiled
  | ok tables =>
    exact ⟨tables, ofConfig_sample, rfl, written_iff_pictures ofConfig_sample hcompile⟩

end Screen

end InfoScreen
