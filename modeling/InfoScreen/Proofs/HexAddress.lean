import InfoScreen.Program.HexAddress
import InfoScreen.Proofs.Unambiguous

/-!
# Which addresses are read

An address is meant to be one or more hexadecimal digits of either case, behind one radix mark or
none, of a number that 32 bits can hold.  All such texts are read.  But marks are dropped as often
as they stand there, and the number behind them may have a sign, so a text with several marks or
with a plus sign is read as well.  The main statement gives the texts that are read, and tells the
ones that are meant from the others.
-/

namespace InfoScreen.Program

open Text

/-- Hexadecimal digits of either case, at least one, that spell a number. -/
def IsNumber (digits : List Char) (n : Nat) : Prop := digits ≠ [] ∧ hexNumber? digits = some n

/-- The text of an address as it is meant: at most one radix mark, and digits. -/
def IsAddress (text : List Char) (address : UInt32) : Prop :=
  ∃ mark ∈ [[], ['0', 'x'], ['0', 'X']], ∃ digits,
    text = mark ++ digits ∧ IsNumber digits address.toNat

def marks (case : Char) (count : Nat) : List Char := (List.replicate count ['0', case]).flatten

def sign (signed : Bool) : List Char := if signed then ['+'] else []

/-- The parts of a text that is read as an address. -/
structure Spelling where
  lowerMarks : Nat
  upperMarks : Nat
  signed : Bool
  digits : List Char

def Spelling.text (spelling : Spelling) : List Char :=
  marks 'x' spelling.lowerMarks ++
    (marks 'X' spelling.upperMarks ++ (sign spelling.signed ++ spelling.digits))

variable {text digits rest : List Char} {c case : Char} {count n m : Nat} {address : UInt32}

theorem mapM_hexDigit?_cons_eq_some_iff {d : Nat} (hc : hexDigit? c = some d) {values : List Nat} :
    (c :: rest).mapM hexDigit? = some values ↔
      ∃ others, rest.mapM hexDigit? = some others ∧ values = d :: others := by
  rw [List.mapM_cons, hc]
  simp only [Option.bind_eq_bind, Option.bind_some, Option.bind_eq_some_iff, Option.pure_def,
    Option.some.injEq]
  exact exists_congr fun others ↦ and_congr_right fun _ ↦ eq_comm

theorem le_foldl_digits (values : List Nat) (n : Nat) :
    n ≤ values.foldl (fun n d ↦ n * 16 + d) n := by
  induction values generalizing n with
  | nil => exact Nat.le_refl n
  | cons d values ih =>
    calc
      n ≤ n * 16 + d := by omega
      _ ≤ values.foldl (fun n d ↦ n * 16 + d) (n * 16 + d) := ih (n * 16 + d)

/-- Digits are read if the number stays within 32 bits.  It never shrinks on the way, so it is
enough that the last one does. -/
theorem readHex_eq_ok_iff (hn : n < UInt32.size) :
    readHex n digits = .ok m ↔ ∃ values, digits.mapM hexDigit? = some values ∧
      values.foldl (fun n d ↦ n * 16 + d) n = m ∧ m < UInt32.size := by
  -- by the digits that are left, for any number read so far that fits
  induction digits generalizing n with
  | nil =>
    rw [readHex, List.mapM_nil]
    constructor
    · intro h
      obtain rfl := Except.ok.inj h
      exact ⟨[], rfl, rfl, hn⟩
    · rintro ⟨values, hvalues, rfl, -⟩
      obtain rfl := Option.some.inj hvalues
      rfl
  | cons c rest ih =>
    rw [readHex]
    cases hc : hexDigit? c with
    | none => simp [List.mapM_cons, hc]
    | some d =>
      simp only [mapM_hexDigit?_cons_eq_some_iff hc]
      split
      next hlarge =>
        refine ⟨nofun, ?_⟩
        rintro ⟨values, ⟨others, -, rfl⟩, rfl, hm⟩
        have hle := le_foldl_digits others (n * 16 + d)
        rw [List.foldl_cons] at hm
        omega
      next hsmall =>
        rw [ih (Nat.lt_of_not_le hsmall)]
        constructor
        · rintro ⟨others, hothers, hm⟩
          exact ⟨d :: others, ⟨others, hothers, rfl⟩, hm⟩
        · rintro ⟨values, ⟨others, hothers, rfl⟩, hm⟩
          exact ⟨others, hothers, hm⟩

theorem readHex_zero_eq_ok_iff :
    readHex 0 digits = .ok n ↔ hexNumber? digits = some n ∧ n < UInt32.size := by
  rw [readHex_eq_ok_iff (by decide), hexNumber?, Option.map_eq_some_iff]
  constructor
  · rintro ⟨values, hvalues, hn, hlt⟩
    exact ⟨⟨values, hvalues, hn⟩, hlt⟩
  · rintro ⟨⟨values, hvalues, hn⟩, hlt⟩
    exact ⟨values, hvalues, hn, hlt⟩

/-- A character that is no digit is not among the digits of a number. -/
theorem IsNumber.notMem (h : IsNumber digits n) (hc : hexDigit? c = none) : c ∉ digits := by
  intro hmem
  have hsome := isSome_hexDigit?_of_hexNumber? h.2 c hmem
  rw [hc] at hsome
  cases hsome

theorem readUnmarked_sign_append (h : IsNumber digits n) (signed : Bool) :
    readUnmarked (sign signed ++ digits) = readHex 0 digits := by
  obtain ⟨first, more, rfl⟩ := List.exists_cons_of_ne_nil h.1
  cases signed with
  | true => rfl
  | false =>
    have hfirst : first ≠ '+' := fun hplus ↦
      h.notMem (show hexDigit? '+' = none by decide) (hplus ▸ List.mem_cons_self)
    simp [sign, readUnmarked, hfirst]

/-- One plus sign may stand in front of the digits. -/
theorem readUnmarked_eq_ok_iff : readUnmarked text = .ok n ↔
    ∃ signed digits, text = sign signed ++ digits ∧ IsNumber digits n ∧ n < UInt32.size := by
  constructor
  · intro h
    unfold readUnmarked at h
    split at h
    next => cases h
    next c rest =>
      obtain ⟨hnumber, hlt⟩ := readHex_zero_eq_ok_iff.mp h
      exact ⟨true, c :: rest, rfl, ⟨List.cons_ne_nil c rest, hnumber⟩, hlt⟩
    next hne _ =>
      obtain ⟨hnumber, hlt⟩ := readHex_zero_eq_ok_iff.mp h
      exact ⟨false, text, rfl, ⟨hne, hnumber⟩, hlt⟩
  · rintro ⟨signed, digits, rfl, hnumber, hlt⟩
    rw [readUnmarked_sign_append hnumber]
    exact readHex_zero_eq_ok_iff.mpr ⟨hnumber.2, hlt⟩

/-! ## The marks -/

theorem marks_succ (case : Char) (count : Nat) :
    marks case (count + 1) = '0' :: case :: marks case count := by
  rw [marks, List.replicate_succ, List.flatten_cons]
  rfl

theorem mem_marks (h : c ∈ marks case count) : c = '0' ∨ c = case := by
  obtain ⟨mark, hmark, hc⟩ := List.mem_flatten.mp h
  obtain rfl := List.eq_of_mem_replicate hmark
  simpa using hc

theorem exists_marks_append (case : Char) (text : List Char) :
    ∃ count, text = marks case count ++ dropMarks '0' case text := by
  fun_induction dropMarks '0' case text with
  | case1 a b rest hmark ih =>
    obtain ⟨count, hrest⟩ := ih
    obtain ⟨rfl, rfl⟩ := hmark
    refine ⟨count + 1, ?_⟩
    rw [marks_succ, List.cons_append, List.cons_append, ← hrest]
  | case2 a b rest => exact ⟨0, rfl⟩
  | case3 text => exact ⟨0, rfl⟩

/-- All marks are dropped if there is none of them in what comes behind. -/
theorem dropMarks_marks_append (hrest : case ∉ rest) (count : Nat) :
    dropMarks '0' case (marks case count ++ rest) = rest := by
  induction count with
  | zero =>
    change dropMarks '0' case rest = rest
    fun_cases dropMarks '0' case rest with
    | case1 a b more hmark => simp [hmark.2] at hrest
    | case2 a b more hmark => rfl
    | case3 => rfl
  | succ count ih =>
    rw [marks_succ, List.cons_append, List.cons_append, dropMarks, if_pos ⟨rfl, rfl⟩, ih]

theorem dropMarks_text (spelling : Spelling) (h : IsNumber spelling.digits n) :
    dropMarks '0' 'X' (dropMarks '0' 'x' spelling.text) =
      sign spelling.signed ++ spelling.digits := by
  have hlower : 'x' ∉ spelling.digits := h.notMem (by decide)
  have hupper : 'X' ∉ spelling.digits := h.notMem (by decide)
  have hsign : ∀ c ∈ sign spelling.signed, c = '+' := by
    cases spelling.signed <;> simp [sign]
  -- the lower-case marks go first; neither kind stands behind its last mark
  rw [Spelling.text, dropMarks_marks_append, dropMarks_marks_append]
  · simp only [List.mem_append, not_or]
    exact ⟨fun hmem ↦ absurd (hsign _ hmem) (by decide), hupper⟩
  · simp only [List.mem_append, not_or]
    refine ⟨fun hmem ↦ absurd (mem_marks hmem) (by decide), ?_, hlower⟩
    exact fun hmem ↦ absurd (hsign _ hmem) (by decide)

theorem readAddress_eq_ok_iff : readAddress text = .ok address ↔
    readUnmarked (dropMarks '0' 'X' (dropMarks '0' 'x' text)) = .ok address.toNat := by
  rw [readAddress]
  cases hread : readUnmarked (dropMarks '0' 'X' (dropMarks '0' 'x' text)) with
  | error error => simp [Except.map]
  | ok n =>
    obtain ⟨-, -, -, -, hlt⟩ := readUnmarked_eq_ok_iff.mp hread
    simp only [Except.map, Except.ok.injEq]
    constructor
    · rintro rfl
      exact (UInt32.toNat_ofNat_of_lt' hlt).symm
    · rintro rfl
      exact UInt32.ofNat_toNat

/-- The texts that are read: marks, first in lower and then in upper case, a sign and digits. -/
theorem readAddress_eq_ok_iff_spelling : readAddress text = .ok address ↔
    ∃ spelling : Spelling, spelling.text = text ∧ IsNumber spelling.digits address.toNat := by
  rw [readAddress_eq_ok_iff]
  constructor
  · intro h
    obtain ⟨signed, digits, hbare, hnumber, -⟩ := readUnmarked_eq_ok_iff.mp h
    obtain ⟨lowerMarks, hlower⟩ := exists_marks_append 'x' text
    obtain ⟨upperMarks, hupper⟩ := exists_marks_append 'X' (dropMarks '0' 'x' text)
    refine ⟨⟨lowerMarks, upperMarks, signed, digits⟩, ?_, hnumber⟩
    rw [Spelling.text, ← hbare, ← hupper, ← hlower]
  · rintro ⟨spelling, rfl, hnumber⟩
    rw [dropMarks_text spelling hnumber, readUnmarked_sign_append hnumber]
    exact readHex_zero_eq_ok_iff.mpr ⟨hnumber.2, address.toNat_lt⟩

/-- A text that is read has a character `x` of either case in every mark and nowhere else. -/
theorem count_text (spelling : Spelling) (h : IsNumber spelling.digits n) :
    spelling.text.count 'x' = spelling.lowerMarks ∧
      spelling.text.count 'X' = spelling.upperMarks ∧
        spelling.text.count '+' = if spelling.signed then 1 else 0 := by
  have hlower : spelling.digits.count 'x' = 0 := List.count_eq_zero.mpr (h.notMem (by decide))
  have hupper : spelling.digits.count 'X' = 0 := List.count_eq_zero.mpr (h.notMem (by decide))
  have hplus : spelling.digits.count '+' = 0 := List.count_eq_zero.mpr (h.notMem (by decide))
  cases hsigned : spelling.signed <;>
    simp [Spelling.text, marks, sign, hsigned, hlower, hupper, hplus, List.count_flatten]

/-- An address as it is meant is what is read without a sign and with one mark at most. -/
theorem isAddress_iff : IsAddress text address ↔ readAddress text = .ok address ∧
    '+' ∉ text ∧ text.count 'x' + text.count 'X' ≤ 1 := by
  rw [readAddress_eq_ok_iff_spelling]
  constructor
  · rintro ⟨mark, hmark, digits, rfl, hnumber⟩
    obtain ⟨spelling, htext, hdigits, hsigned, hmarks⟩ : ∃ spelling : Spelling,
        spelling.text = mark ++ digits ∧ spelling.digits = digits ∧ spelling.signed = false ∧
          spelling.lowerMarks + spelling.upperMarks ≤ 1 := by
      simp only [List.mem_cons, List.not_mem_nil, or_false] at hmark
      rcases hmark with rfl | rfl | rfl
      · exact ⟨⟨0, 0, false, digits⟩, rfl, rfl, rfl, Nat.zero_le 1⟩
      · exact ⟨⟨1, 0, false, digits⟩, rfl, rfl, rfl, Nat.le_refl 1⟩
      · exact ⟨⟨0, 1, false, digits⟩, rfl, rfl, rfl, Nat.le_refl 1⟩
    rw [← hdigits] at hnumber
    obtain ⟨hlower, hupper, hplus⟩ := count_text spelling hnumber
    rw [← htext, hlower, hupper, ← List.count_eq_zero, hplus, hsigned]
    exact ⟨⟨spelling, rfl, hnumber⟩, rfl, hmarks⟩
  · rintro ⟨⟨spelling, rfl, hnumber⟩, hplus, hmarks⟩
    obtain ⟨hlower, hupper, hcount⟩ := count_text spelling hnumber
    rw [← List.count_eq_zero, hcount] at hplus
    rw [hlower, hupper] at hmarks
    obtain ⟨lowerMarks, upperMarks, signed, digits⟩ := spelling
    obtain rfl : signed = false := by simpa using hplus
    dsimp only at hmarks hnumber
    -- one mark at most, so the spelling is one of the three that are meant
    obtain ⟨rfl, rfl⟩ | ⟨rfl, rfl⟩ | ⟨rfl, rfl⟩ : lowerMarks = 0 ∧ upperMarks = 0 ∨
        lowerMarks = 1 ∧ upperMarks = 0 ∨ lowerMarks = 0 ∧ upperMarks = 1 := by omega
    · exact ⟨[], by simp, digits, rfl, hnumber⟩
    · exact ⟨['0', 'x'], by simp, digits, rfl, hnumber⟩
    · exact ⟨['0', 'X'], by simp, digits, rfl, hnumber⟩

/-- Exactly these texts are read: marks, first in lower and then in upper case, an optional plus
sign and the digits of the address.  All addresses that are meant are among them, and they are those
that have no plus sign and at most one mark. -/
theorem readAddress_accepts (text : List Char) (address : UInt32) :
    (readAddress text = .ok address ↔
      ∃ spelling : Spelling, spelling.text = text ∧ IsNumber spelling.digits address.toNat) ∧
    (IsAddress text address ↔
      readAddress text = .ok address ∧ '+' ∉ text ∧ text.count 'x' + text.count 'X' ≤ 1) :=
  ⟨readAddress_eq_ok_iff_spelling, isAddress_iff⟩

/-- A repeated mark, marks in both cases and a sign are accepted in front of the digits. -/
theorem readAddress_surplus_marks :
    (readAddress "0x0x1".toList = .ok 1 ∧ ¬IsAddress "0x0x1".toList 1) ∧
    (readAddress "0x0X1".toList = .ok 1 ∧ ¬IsAddress "0x0X1".toList 1) ∧
    readAddress "+1".toList = .ok 1 ∧ ¬IsAddress "+1".toList 1 := by
  refine ⟨⟨rfl, fun h ↦ ?_⟩, ⟨rfl, fun h ↦ ?_⟩, rfl, fun h ↦ ?_⟩
  · exact absurd (isAddress_iff.mp h).2.2 (by decide)
  · exact absurd (isAddress_iff.mp h).2.2 (by decide)
  · exact absurd (isAddress_iff.mp h).2.1 (by decide)

end InfoScreen.Program
