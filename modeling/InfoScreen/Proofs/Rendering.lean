import InfoScreen.Proofs.Unambiguous
import InfoScreen.Table.Format
import Mathlib.Tactic.SplitIfs

/-!
# Rendering loses nothing

A table can be read back from its text.  The fields of an entry stand between fixed texts that
begin with a character which the field before them cannot have, escapes keep a string apart from
its quotes, and neither an entry nor the end of the list begins like the other.  The name of the
table may be any text: in assignments it is the same on every line, and in an object it is quoted.
-/

namespace InfoScreen

open Text

theorem ValueType.code_injective : Function.Injective ValueType.code := by
  intro valueType other h
  cases valueType <;> cases other <;> first | rfl | cases h

theorem ValueType.name_injective : Function.Injective ValueType.name := by
  intro valueType other h
  cases valueType <;> cases other <;> first | rfl | simp [ValueType.name] at h

theorem delimited_byte {mark : List Char} (hmark : mark.head?.any (fun c ↦ !c.isDigit) = true) :
    Delimited mark fun byte : UInt8 ↦ (decimal byte.toNat).toList :=
  (delimited_decimal hmark).comp fun _ _ ↦ UInt8.toNat_inj.mp

/-! ## Assignments -/

namespace Table.Verilog

theorem prefixFree_bit : PrefixFree fun b ↦ (bit b).toList :=
  prefixFree_ite fun rest other h ↦ by simp at h

/-- An assignment tells all fields of its entry. -/
theorem prefixFree_line (encoding : Encoding) :
    PrefixFree fun entry ↦ (line encoding entry).toList := by
  rintro ⟨index, address, valueType, value, secondary, displayWrite, memoryRead⟩
    ⟨index', address', valueType', value', secondary', displayWrite', memoryRead'⟩ rest rest' h
  unfold line at h
  simp only [String.toList_append, List.append_assoc] at h
  -- The name and the widths are those of the encoding on both sides and only have to be passed.
  replace h := List.append_cancel_left (List.append_cancel_left h)
  obtain ⟨hindex, h⟩ := delimited_decimal (by decide) h
  obtain ⟨-, h⟩ := delimited_decimal (by decide) h
  obtain ⟨haddress, h⟩ := delimited_decimal (by decide) h
  obtain ⟨hvalueType, h⟩ := (delimited_decimal (by decide)).comp ValueType.code_injective h
  obtain ⟨hvalue, h⟩ := delimited_byte (by decide) h
  obtain ⟨-, h⟩ := delimited_decimal (by decide) h
  obtain ⟨hsecondary, h⟩ := delimited_paddedUpperHex encoding.diffDigits (by decide) h
  obtain ⟨hdisplayWrite, h⟩ := prefixFree_bit.delimited _ h
  obtain ⟨hmemoryRead, hrest⟩ := prefixFree_bit.delimited _ h
  subst hindex haddress hvalueType hvalue hdisplayWrite hmemoryRead
  obtain rfl := UInt32.toNat_inj.mp hsecondary
  exact ⟨rfl, hrest⟩

theorem toList_render (encoding : Encoding) (bank : Bank) :
    (render encoding bank).toList =
      bank.entries.toList.flatMap fun entry ↦ (line encoding entry).toList := by
  rw [render, String.toList_join, List.flatMap_map]

theorem line_ne_nil (encoding : Encoding) (entry : Entry) : (line encoding entry).toList ≠ [] := by
  unfold line
  rw [String.toList_append]
  exact List.append_ne_nil_of_right_ne_nil _ (by decide)

/-- Under one encoding the assignments tell the entries of the bank. -/
theorem render_eq_iff (encoding : Encoding) (bank other : Bank) :
    render encoding bank = render encoding other ↔ bank.entries = other.entries := by
  constructor
  · intro h
    have hlists := congrArg String.toList h
    rw [toList_render, toList_render] at hlists
    exact Array.toList_inj.mp
      ((prefixFree_line encoding).flatMap_injective (line_ne_nil encoding) hlists)
  · intro h
    rw [render, render, h]

end Table.Verilog

/-! ## Objects -/

namespace Table.Json

/-- The next character of a string, with what comes behind it. -/
def unescaped? : List Char → Option (Char × List Char)
  | '\\' :: 'b' :: rest => some ('\x08', rest)
  | '\\' :: 't' :: rest => some ('\t', rest)
  | '\\' :: 'n' :: rest => some ('\n', rest)
  | '\\' :: 'f' :: rest => some ('\x0c', rest)
  | '\\' :: 'r' :: rest => some ('\r', rest)
  | '\\' :: 'u' :: rest =>
    (hexNumber? (rest.take 4)).map fun code ↦ (Char.ofNat code, rest.drop 4)
  | '\\' :: c :: rest => some (c, rest)
  | c :: rest => some (c, rest)
  | [] => none

/-- The code point of a control takes four digits. -/
theorem hexNumber?_control {code : Nat} (hcode : code < 0x20) :
    (padDigits 4 (hexDigits code)).length = 4 ∧
      hexNumber? (padDigits 4 (hexDigits code)) = some code := by
  have hall : ∀ code < 0x20, (padDigits 4 (hexDigits code)).length = 4 ∧
    hexNumber? (padDigits 4 (hexDigits code)) = some code := by decide
  exact hall code hcode

theorem unescaped?_escaped (c : Char) (rest : List Char) :
    unescaped? (escaped c ++ rest) = some (c, rest) := by
  unfold escaped
  split_ifs with hquote hbackspace htab hfeed hpage hreturn hcontrol
  · rcases hquote with rfl | rfl <;> rfl
  · rw [hbackspace]; rfl
  · rw [htab]; rfl
  · rw [hfeed]; rfl
  · rw [hpage]; rfl
  · rw [hreturn]; rfl
  · obtain ⟨hlength, hcode⟩ := hexNumber?_control hcontrol
    simp [unescaped?, hlength, hcode]
  · have hslash : c ≠ '\\' := fun h ↦ hquote (.inr h)
    simp [unescaped?, hslash]

theorem prefixFree_escaped : PrefixFree escaped := .of_read unescaped? unescaped?_escaped

/-- No escaped character begins with the quote. -/
theorem escaped_append_ne_quote (c : Char) (more rest : List Char) :
    escaped c ++ more ≠ ['"'] ++ rest := by
  intro h
  unfold escaped at h
  split_ifs at h with hquote
  case neg =>
    obtain ⟨hc, -⟩ := List.cons.inj h
    exact hquote (.inl hc)
  all_goals simp at h

theorem prefixFree_string : PrefixFree fun s ↦ (string s).toList := by
  intro s other rest otherRest h
  simp only [string, String.toList_ofList, List.append_assoc] at h
  replace h := List.append_cancel_left h
  rw [← List.append_assoc, ← List.append_assoc] at h
  obtain ⟨hchars, hrest⟩ := prefixFree_escaped.closed escaped_append_ne_quote h
  exact ⟨String.toList_inj.mp hchars, hrest⟩

theorem prefixFree_boolean : PrefixFree fun b ↦ (boolean b).toList :=
  prefixFree_ite fun rest other h ↦ by simp at h

/-- The name of a value type has no quote in it. -/
theorem delimited_name {mark : List Char} (hmark : mark.head?.any (fun c ↦ !(c != '"')) = true) :
    Delimited mark fun valueType : ValueType ↦ valueType.name.toList := by
  have hquoteless (valueType : ValueType) :
      valueType.name.toList.all (· != '"') = true := by
    cases valueType <;> rfl
  refine delimited_of_run (· != '"') ?_ ?_ hmark
  · exact fun valueType ↦ List.all_eq_true.mp (hquoteless valueType)
  · exact fun _ _ h ↦ ValueType.name_injective (String.toList_inj.mp h)

/-- The object of an entry tells all of its fields. -/
theorem prefixFree_row : PrefixFree fun entry ↦ (row entry).toList := by
  rintro ⟨index, address, valueType, value, secondary, displayWrite, memoryRead⟩
    ⟨index', address', valueType', value', secondary', displayWrite', memoryRead'⟩ rest rest' h
  unfold row at h
  simp only [String.toList_append, List.append_assoc] at h
  replace h := List.append_cancel_left (List.append_cancel_left h)
  obtain ⟨hindex, h⟩ := delimited_decimal (by decide) h
  replace h := List.append_cancel_left h
  obtain ⟨haddress, h⟩ := delimited_decimal (by decide) h
  replace h := List.append_cancel_left h
  obtain ⟨hvalueType, h⟩ := delimited_name (by decide) h
  replace h := List.append_cancel_left h
  obtain ⟨hvalue, h⟩ := delimited_byte (by decide) h
  replace h := List.append_cancel_left h
  obtain ⟨hsecondary, h⟩ := delimited_decimal (by decide) h
  replace h := List.append_cancel_left h
  obtain ⟨hdisplayWrite, h⟩ := prefixFree_boolean.delimited _ h
  replace h := List.append_cancel_left h
  obtain ⟨hmemoryRead, h⟩ := prefixFree_boolean.delimited _ h
  have hrest := List.append_cancel_left h
  subst hindex haddress hvalueType hvalue hdisplayWrite hmemoryRead
  obtain rfl := UInt32.toNat_inj.mp hsecondary
  exact ⟨rfl, hrest⟩

theorem toList_intercalate_cons (separator first : String) (others : List String) :
    (separator.intercalate (first :: others)).toList =
      first.toList ++ others.flatMap fun text ↦ separator.toList ++ text.toList := by
  induction others generalizing first with
  | nil => rw [String.intercalate_singleton, List.flatMap_nil, List.append_nil]
  | cons second others ih =>
    rw [String.intercalate_cons_cons, String.toList_append, String.toList_append, ih,
      List.flatMap_cons, List.append_assoc, List.append_assoc]

def laterRow (entry : Entry) : List Char := ",\n".toList ++ (row entry).toList

theorem prefixFree_laterRow : PrefixFree laterRow := by
  intro entry other rest otherRest h
  rw [laterRow, laterRow, List.append_assoc, List.append_assoc] at h
  exact prefixFree_row (List.append_cancel_left h)

theorem toList_rows_cons (entry : Entry) (entries : List Entry) :
    (rows (entry :: entries)).toList =
      "[\n".toList ++ ((row entry).toList ++ (entries.flatMap laterRow ++ "\n  ]".toList)) := by
  simp only [rows, List.map_cons, String.toList_append, toList_intercalate_cons, List.flatMap_map,
    List.append_assoc]
  rfl

/-- The end of the list begins otherwise than an entry behind the first. -/
theorem laterRow_append_ne_stop (entry : Entry) (more rest : List Char) :
    laterRow entry ++ more ≠ "\n  ]".toList ++ rest := by
  intro h
  rw [laterRow, List.append_assoc] at h
  simp at h

theorem prefixFree_rows : PrefixFree fun entries ↦ (rows entries).toList := by
  intro entries others rest otherRest h
  cases entries with
  | nil =>
    cases others with
    | nil => exact ⟨rfl, List.append_cancel_left h⟩
    | cons other others =>
      simp only [toList_rows_cons, List.append_assoc] at h
      simp [rows] at h
  | cons entry entries =>
    cases others with
    | nil =>
      simp only [toList_rows_cons, List.append_assoc] at h
      simp [rows] at h
    | cons other others =>
      simp only [toList_rows_cons, List.append_assoc] at h
      obtain ⟨rfl, hlater⟩ := prefixFree_row (List.append_cancel_left h)
      rw [← List.append_assoc, ← List.append_assoc] at hlater
      obtain ⟨rfl, hrest⟩ := prefixFree_laterRow.closed laterRow_append_ne_stop hlater
      exact ⟨rfl, hrest⟩

/-- An object tells the name of its table and the whole bank. -/
theorem render_eq_iff {name otherName : String} {bank other : Bank} :
    render name bank = render otherName other ↔ name = otherName ∧ bank = other := by
  constructor
  · intro h
    have hlists := congrArg String.toList h
    unfold render at hlists
    simp only [String.toList_append, List.append_assoc] at hlists
    replace hlists := List.append_cancel_left hlists
    obtain ⟨hname, hlists⟩ := prefixFree_string hlists
    replace hlists := List.append_cancel_left hlists
    obtain ⟨hnumber, hlists⟩ := delimited_decimal (by decide) hlists
    obtain ⟨hentries, -⟩ := prefixFree_rows hlists
    obtain ⟨number, entries⟩ := bank
    obtain ⟨otherNumber, others⟩ := other
    obtain rfl := Array.toList_inj.mp hentries
    obtain rfl := hnumber
    exact ⟨hname, rfl⟩
  · rintro ⟨rfl, rfl⟩
    rfl

end Table.Json

/-- Banks with one text hold the same.  If both are written as assignments under one encoding, they
have the same entries; if both are written as objects, the names of their tables, their numbers and
their entries are the same. -/
theorem TableFormat.render_eq_render_iff :
    (∀ (encoding : Encoding) (bank other : Bank),
      systemVerilog.render encoding bank = systemVerilog.render encoding other ↔
        bank.entries = other.entries) ∧
    ∀ (encoding otherEncoding : Encoding) (bank other : Bank),
      json.render encoding bank = json.render otherEncoding other ↔
        encoding.tableName = otherEncoding.tableName ∧ bank = other :=
  ⟨Table.Verilog.render_eq_iff, fun _ _ _ _ ↦ Table.Json.render_eq_iff⟩

end InfoScreen
