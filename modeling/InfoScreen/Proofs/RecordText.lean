import InfoScreen.Proofs.BootFile
import InfoScreen.Proofs.HexBytes

/-!
# The text of a boot record

A record is written as a colon and the digits of its bytes: the number of data bytes, the address,
the type, the data and the checksum.  Of all lines exactly those are read that are written like
this, with digits of either case and any blanks around them, and what is read is the record that
was written.
-/

namespace InfoScreen

namespace Text

section Blanks

variable {before text after : List Char}

theorem exists_append_trim (line : List Char) : ∃ after, (∀ c ∈ after, isBlank c = true) ∧
    line = line.takeWhile isBlank ++ trim line ++ after := by
  refine ⟨((trimStart line).reverse.takeWhile isBlank).reverse, ?_, ?_⟩
  · exact fun c hc ↦ List.all_eq_true.mp List.all_takeWhile c (List.mem_reverse.mp hc)
  · rw [trim, trimEnd, List.append_assoc, ← List.reverse_append, List.takeWhile_append_dropWhile,
      List.reverse_reverse, trimStart, List.takeWhile_append_dropWhile]

theorem dropWhile_isBlank_eq (htext : ∀ c ∈ text, isBlank c = false) :
    text.dropWhile isBlank = text := by
  cases text with
  | nil => rfl
  | cons first rest => exact List.dropWhile_cons_of_neg (by simp [htext first])

theorem trim_append (hbefore : ∀ c ∈ before, isBlank c = true) (hnil : text ≠ [])
    (htext : ∀ c ∈ text, isBlank c = false) (hafter : ∀ c ∈ after, isBlank c = true) :
    trim (before ++ text ++ after) = text := by
  obtain ⟨first, rest, rfl⟩ := List.exists_cons_of_ne_nil hnil
  have hstart : trimStart (before ++ first :: rest ++ after) = first :: rest ++ after := by
    rw [trimStart, List.append_assoc, List.dropWhile_append_of_pos hbefore, List.cons_append,
      List.dropWhile_cons_of_neg (by simp [htext first])]
  rw [trim, hstart, trimEnd, List.reverse_append, List.dropWhile_append_of_pos,
    dropWhile_isBlank_eq, List.reverse_reverse]
  · exact fun c hc ↦ htext c (List.mem_reverse.mp hc)
  · exact fun c hc ↦ hafter c (List.mem_reverse.mp hc)

end Blanks

end Text

namespace Boot

open Text

/-! ## The bytes of a record -/

section Checksums

theorem toNat_foldl_add (bytes : List UInt8) (start : UInt8) :
    (bytes.foldl (· + ·) start).toNat = (start.toNat + (bytes.map UInt8.toNat).sum) % 256 := by
  induction bytes generalizing start with
  | nil => exact (Nat.mod_eq_of_lt start.toNat_lt).symm
  | cons byte rest ih =>
    rw [List.foldl_cons, ih, UInt8.toNat_add, List.map_cons, List.sum_cons]
    omega

/-- The checksum is the byte that brings the sum to zero. -/
theorem checksumOf_eq_iff {bytes : List UInt8} {checksum : UInt8} :
    checksumOf bytes = checksum ↔ ((bytes ++ [checksum]).map UInt8.toNat).sum % 256 = 0 := by
  have hsum := toNat_foldl_add bytes 0
  have hlt := checksum.toNat_lt
  rw [← UInt8.toNat_inj, checksumOf, UInt8.toNat_sub, hsum, List.map_append, List.sum_append]
  simp only [UInt8.toNat_zero, Nat.zero_add, List.map_cons, List.map_nil, List.sum_cons,
    List.sum_nil]
  omega

end Checksums

theorem RecordKind.ofCode?_eq_some_iff {code : UInt8} {kind : RecordKind} :
    ofCode? code = some kind ↔ code = kind.code := by
  constructor
  · intro h
    rw [← UInt8.toNat_inj]
    unfold ofCode? at h
    split at h <;> cases h <;> assumption
  · rintro rfl
    cases kind <;> rfl

namespace Record

def body (record : Record) : List UInt8 :=
  UInt8.ofNat record.data.length :: UInt8.ofNat (record.address.toNat / 256) ::
    UInt8.ofNat record.address.toNat :: record.kind.code :: record.data

def bytes (record : Record) : List UInt8 := record.body ++ [record.checksum]

/-- The length fits its byte, and the checksum is right. -/
structure Valid (record : Record) : Prop where
  length_le : record.data.length ≤ 255
  sum : (record.bytes.map UInt8.toNat).sum % 256 = 0

/-- A text of the record: its digits in either case behind a colon, with any blanks around them. -/
inductive Written (record : Record) : List Char → Prop
  | intro (before digits after : List Char) (hbefore : ∀ c ∈ before, isBlank c = true)
      (hdigits : SpellsBytes digits record.bytes) (hafter : ∀ c ∈ after, isBlank c = true) :
      Written record (before ++ ':' :: digits ++ after)

def ofData (address : UInt16) (kind : RecordKind) (data : List UInt8) : Record :=
  ⟨address, kind, data, checksumOf (body ⟨address, kind, data, 0⟩)⟩

variable {record : Record} {bytes : List UInt8}

theorem ofData_valid (address : UInt16) (kind : RecordKind) {data : List UInt8}
    (hdata : data.length ≤ 255) : (ofData address kind data).Valid where
  length_le := hdata
  sum := checksumOf_eq_iff.mp rfl

/-- Bytes make up a record if their number, their sum and the type are right. -/
theorem ofBytes_eq_ok_iff {length high low code found : UInt8} {data : List UInt8} :
    ofBytes (length :: high :: low :: code :: (data ++ [found])) = .ok record ↔
      data.length = length.toNat ∧ checksumOf (length :: high :: low :: code :: data) = found ∧
        code = record.kind.code ∧
          record = ⟨UInt16.ofNat (high.toNat * 256 + low.toNat), record.kind, data, found⟩ := by
  cases hrest : data ++ [found] with
  | nil => simp at hrest
  | cons first rest =>
    simp only [ofBytes, ← hrest, List.dropLast_concat, List.getLastD_concat]
    by_cases hlength : data.length = length.toNat
    · by_cases hchecksum : checksumOf (length :: high :: low :: code :: data) = found
      · simp only [hlength, hchecksum, ne_eq, not_true_eq_false, if_false, true_and,
          ← RecordKind.ofCode?_eq_some_iff]
        cases RecordKind.ofCode? code with
        | none => simp
        | some kind =>
          simp only [Except.ok.injEq, Option.some.injEq]
          constructor
          · rintro rfl
            exact ⟨rfl, rfl⟩
          · rintro ⟨rfl, hrecord⟩
            exact hrecord.symm
      · simp [hlength, hchecksum]
    · simp [hlength]

/-- The bytes of a valid record make it up. -/
theorem ofBytes_bytes (h : record.Valid) : ofBytes record.bytes = .ok record := by
  have hlength : record.data.length = (UInt8.ofNat record.data.length).toNat :=
    (UInt8.toNat_ofNat_of_lt' (Nat.lt_succ_of_le h.length_le)).symm
  have haddress : UInt16.ofNat ((UInt8.ofNat (record.address.toNat / 256)).toNat * 256 +
      (UInt8.ofNat record.address.toNat).toNat) = record.address := by
    have hlt := record.address.toNat_lt
    apply UInt16.toNat_inj.mp
    rw [UInt16.toNat_ofNat', UInt8.toNat_ofNat', UInt8.toNat_ofNat']
    omega
  apply ofBytes_eq_ok_iff.mpr
  refine ⟨hlength, checksumOf_eq_iff.mpr h.sum, rfl, ?_⟩
  rw [haddress]

/-- What bytes make up is a valid record with these bytes. -/
theorem valid_of_ofBytes (h : ofBytes bytes = .ok record) :
    record.Valid ∧ bytes = record.bytes := by
  match bytes, h with
  | length :: high :: low :: code :: first :: rest, h =>
    obtain ⟨front, last, hrest⟩ : ∃ front last, first :: rest = front ++ [last] :=
      ⟨_, _, (List.dropLast_concat_getLast (List.cons_ne_nil first rest)).symm⟩
    rw [hrest] at h ⊢
    obtain ⟨address, kind, data, found⟩ := record
    obtain ⟨hlength, hchecksum, rfl, hrecord⟩ := ofBytes_eq_ok_iff.mp h
    obtain ⟨rfl, -, rfl, rfl⟩ := Record.mk.inj hrecord
    have haddress : (UInt16.ofNat (high.toNat * 256 + low.toNat)).toNat =
        high.toNat * 256 + low.toNat := by
      apply UInt16.toNat_ofNat_of_lt'
      have hhigh := high.toNat_lt
      have hlow := low.toNat_lt
      change _ < 65536
      omega
    have hbytes : length :: high :: low :: kind.code :: (data ++ [found]) = Record.bytes
        ⟨UInt16.ofNat (high.toNat * 256 + low.toNat), kind, data, found⟩ := by
      have hlow := low.toNat_lt
      simp only [Record.bytes, body, haddress, hlength, UInt8.ofNat_toNat, List.cons_append]
      rw [show (high.toNat * 256 + low.toNat) / 256 = high.toNat by omega, UInt8.ofNat_toNat]
      congr 3
      apply UInt8.toNat_inj.mp
      rw [UInt8.toNat_ofNat']
      omega
    refine ⟨⟨?_, ?_⟩, hbytes⟩
    · rw [hlength]
      exact Nat.le_of_lt_succ length.toNat_lt
    · rw [← hbytes]
      exact checksumOf_eq_iff.mp hchecksum

theorem ofBytes_eq_ok_iff_valid : ofBytes bytes = .ok record ↔
    record.Valid ∧ bytes = record.bytes := by
  refine ⟨valid_of_ofBytes, ?_⟩
  rintro ⟨hvalid, rfl⟩
  exact ofBytes_bytes hvalid

/-- A line is a record if it spells the bytes of a valid one behind a colon. -/
theorem parse_eq_ok_iff {line : List Char} : parse line = .ok record ↔
    record.Valid ∧ ∃ digits, trim line = ':' :: digits ∧ SpellsBytes digits record.bytes := by
  rw [parse]
  split
  next digits htrim =>
    simp only [htrim, List.cons.injEq, true_and, exists_eq_left']
    cases hread : readBytes digits with
    | error error =>
      constructor
      · intro hparse
        cases hparse
      · intro h
        rw [readBytes_eq_ok_iff.mpr h.2] at hread
        cases hread
    | ok bytes =>
      rw [← readBytes_eq_ok_iff, hread, Except.ok.injEq]
      exact ofBytes_eq_ok_iff_valid
  next hcolon =>
    constructor
    · intro hparse
      cases hparse
    · rintro ⟨-, digits, htrim, -⟩
      exact absurd htrim (hcolon digits)

/-- No blank is part of a record. -/
theorem isBlank_of_spellsBytes {digits : List Char} (h : SpellsBytes digits bytes) :
    ∀ c ∈ ':' :: digits, isBlank c = false := by
  rw [List.forall_mem_cons]
  refine ⟨by decide, fun c hc ↦ ?_⟩
  obtain ⟨d, hdigit⟩ := h.isHexDigit c hc
  exact hdigit.isBlank_eq_false

theorem parse_eq_ok_iff_written {line : List Char} :
    parse line = .ok record ↔ record.Valid ∧ record.Written line := by
  rw [parse_eq_ok_iff]
  refine and_congr_right fun _ ↦ ⟨?_, ?_⟩
  · rintro ⟨digits, htrim, hdigits⟩
    obtain ⟨after, hafter, hline⟩ := exists_append_trim line
    rw [hline, htrim]
    exact .intro _ digits after (List.all_eq_true.mp List.all_takeWhile) hdigits hafter
  · rintro ⟨before, digits, after, hbefore, hdigits, hafter⟩
    have hsolid := isBlank_of_spellsBytes hdigits
    exact ⟨digits, trim_append hbefore (List.cons_ne_nil _ _) hsolid hafter, hdigits⟩

end Record

/-- A line is read as a record exactly if it is a text of that record, and every record that has its
checksum is read back, whatever the case of the digits and the blanks around them. -/
theorem readLine_written :
    (∀ line number record, readLine (line, number) = .ok record ↔
      record.Valid ∧ record.Written line) ∧
    ∀ address kind data, data.length ≤ 255 → ∀ before digits after number,
      (∀ c ∈ before, isBlank c = true) → (∀ c ∈ after, isBlank c = true) →
      digits.map Char.toLower = lowerDigits (Record.ofData address kind data).bytes →
        readLine (before ++ ':' :: digits ++ after, number) =
          .ok (Record.ofData address kind data) := by
  have hread : ∀ line number record, readLine (line, number) = .ok record ↔
      record.Valid ∧ record.Written line := by
    intro line number record
    rw [readLine_eq_ok_iff, Record.parse_eq_ok_iff_written]
  refine ⟨hread, ?_⟩
  intro address kind data hdata before digits after number hbefore hafter hdigits
  rw [hread]
  refine ⟨Record.ofData_valid address kind hdata, ?_⟩
  exact .intro before digits after hbefore (spellsBytes_iff.mpr hdigits) hafter

theorem readLine_written_mixed_case :
    Record.ofData 0x0300 .data [0xA9, 0x00, 0x8D, 0x00] =
        ⟨0x0300, .data, [0xA9, 0x00, 0x8D, 0x00], 0xC3⟩ ∧
      readLine ("\t :04030000a9008D00c3 ".toList, 2) =
        .ok (Record.ofData 0x0300 .data [0xA9, 0x00, 0x8D, 0x00]) := by
  refine ⟨by decide, ?_⟩
  exact readLine_written.2 0x0300 .data [0xA9, 0x00, 0x8D, 0x00] (by decide) ['\t', ' ']
    "04030000a9008D00c3".toList [' '] 2 (List.all_eq_true.mp (by decide))
    (List.all_eq_true.mp (by decide)) (by decide)

end Boot

end InfoScreen
