import InfoScreen.Proofs.RecordText

/-!
# Records with one wrong character

A record does not survive the loss of one of its characters.  What tells is the line as a whole,
whatever is written where: a record has a colon, an even number of digits, and digits whose sum,
the high ones counted sixteen times, is zero in a byte.  Without its colon, with another digit or
with a character that is no digit, a line breaks one of these three rules.
-/

namespace InfoScreen.Boot

open Text

def digitValues (line : List Char) : List Nat := line.filterMap hexDigit?

/-- The sum of the bytes that digits make up. -/
def digitSum : List Nat → Nat
  | high :: low :: rest => high * 16 + low + digitSum rest
  | _ => 0

/-- The rules that hold of every line that is read. -/
structure LooksRight (line : List Char) : Prop where
  colon : line.count ':' = 1
  even : (digitValues line).length % 2 = 0
  sum : digitSum (digitValues line) % 256 = 0

variable {line digits : List Char} {bytes : List UInt8} {record : Record} {old new : Char}

theorem digitValues_append (line other : List Char) :
    digitValues (line ++ other) = digitValues line ++ digitValues other := List.filterMap_append

theorem digitValues_of_blank (h : ∀ c ∈ line, isBlank c = true) : digitValues line = [] := by
  rw [digitValues, List.filterMap_eq_nil_iff]
  intro c hc
  rw [Option.eq_none_iff_forall_ne_some]
  intro d hd
  have hsolid := (hexDigit?_eq_some_iff.mp hd).isBlank_eq_false
  rw [h c hc] at hsolid
  cases hsolid

/-- The colon is no digit and the blanks are none. -/
theorem digitValues_framed {before after : List Char} (hbefore : ∀ c ∈ before, isBlank c = true)
    (hafter : ∀ c ∈ after, isBlank c = true) (digits : List Char) :
    digitValues (before ++ ':' :: digits ++ after) = digitValues digits := by
  have hcolon : digitValues (':' :: digits) = digitValues digits := rfl
  rw [digitValues_append, digitValues_append, digitValues_of_blank hbefore,
    digitValues_of_blank hafter, hcolon, List.nil_append, List.append_nil]

theorem digitValues_cons {c : Char} {d : Nat} (h : IsHexDigit c d) (rest : List Char) :
    digitValues (c :: rest) = d :: digitValues rest :=
  List.filterMap_cons_some (hexDigit?_eq_some_iff.mpr h)

theorem length_digitValues (h : SpellsBytes digits bytes) :
    (digitValues digits).length = 2 * bytes.length := by
  induction h with
  | nil => rfl
  | cons hhigh hlow _ ih =>
    rw [digitValues_cons hhigh, digitValues_cons hlow, List.length_cons, List.length_cons, ih,
      List.length_cons, Nat.mul_succ]

theorem digitSum_digitValues (h : SpellsBytes digits bytes) :
    digitSum (digitValues digits) = (bytes.map UInt8.toNat).sum := by
  induction h with
  | nil => rfl
  | cons hhigh hlow _ ih =>
    rw [digitValues_cons hhigh, digitValues_cons hlow, digitSum, ih, Nat.div_add_mod',
      List.map_cons, List.sum_cons]

theorem count_colon_of_blank (h : ∀ c ∈ line, isBlank c = true) : line.count ':' = 0 := by
  rw [List.count_eq_zero]
  intro hcolon
  exact absurd (h _ hcolon) (by decide)

theorem count_colon_of_spellsBytes (h : SpellsBytes digits bytes) : digits.count ':' = 0 := by
  rw [List.count_eq_zero]
  intro hcolon
  obtain ⟨d, hdigit⟩ := h.isHexDigit _ hcolon
  have hvalue := hexDigit?_eq_some_iff.mpr hdigit
  cases hvalue

theorem looksRight_of_parse (h : Record.parse line = .ok record) : LooksRight line := by
  obtain ⟨hvalid, before, digits, after, hbefore, hdigits, hafter⟩ :=
    Record.parse_eq_ok_iff_written.mp h
  constructor
  case colon =>
    rw [List.count_append, List.count_append, List.count_cons_self, count_colon_of_blank hbefore,
      count_colon_of_spellsBytes hdigits, count_colon_of_blank hafter]
  case even =>
    rw [digitValues_framed hbefore hafter, length_digitValues hdigits]
    exact Nat.mul_mod_right 2 _
  case sum =>
    rw [digitValues_framed hbefore hafter, digitSum_digitValues hdigits]
    exact hvalid.sum

/-! ## One wrong digit -/

/-- Among an even number of digits each counts once or sixteen times. -/
theorem digitSum_append_cons : ∀ (front back : List Nat), (front.length + back.length) % 2 = 1 →
    ∃ weight others, (weight = 1 ∨ weight = 16) ∧
      ∀ d, digitSum (front ++ d :: back) = weight * d + others
  | [], [], hodd => by simp at hodd
  | [], low :: rest, _ =>
    ⟨16, low + digitSum rest, .inr rfl, fun d ↦ by simp only [List.nil_append, digitSum]; omega⟩
  | [high], back, _ =>
    ⟨1, high * 16 + digitSum back, .inl rfl, fun d ↦ by
      simp only [List.cons_append, List.nil_append, digitSum]; omega⟩
  | high :: low :: front, back, hodd => by
    have hrest : (front.length + back.length) % 2 = 1 := by
      rw [List.length_cons, List.length_cons] at hodd
      omega
    obtain ⟨weight, others, hweight, hsum⟩ := digitSum_append_cons front back hrest
    refine ⟨weight, high * 16 + low + others, hweight, fun d ↦ ?_⟩
    rw [List.cons_append, List.cons_append, digitSum, hsum]
    omega

section

variable {front back : List Char}

/-- Only a colon can stand for a colon. -/
theorem LooksRight.eq_colon (h : LooksRight (front ++ ':' :: back))
    (hother : LooksRight (front ++ new :: back)) : new = ':' := by
  have hcount := h.colon
  have hcount' := hother.colon
  rw [List.count_append, List.count_cons_self] at hcount
  rw [List.count_append] at hcount'
  by_cases hnew : new = ':'
  · exact hnew
  · rw [List.count_cons_of_ne hnew] at hcount'
    omega

/-- Only the same digit can stand for a digit. -/
theorem LooksRight.isHexDigit {d : Nat} (h : LooksRight (front ++ old :: back))
    (hother : LooksRight (front ++ new :: back)) (hold : IsHexDigit old d) : IsHexDigit new d := by
  have heven := h.even
  have heven' := hother.even
  have hsum := h.sum
  have hsum' := hother.sum
  rw [digitValues_append, digitValues_cons hold] at heven hsum
  rw [List.length_append, List.length_cons] at heven
  rw [digitValues_append] at heven' hsum'
  cases hvalue : hexDigit? new with
  | none =>
    -- one digit fewer is an odd number of them
    have hback : digitValues (new :: back) = digitValues back := List.filterMap_cons_none hvalue
    rw [hback, List.length_append] at heven'
    omega
  | some e =>
    have hnew := hexDigit?_eq_some_iff.mp hvalue
    obtain ⟨weight, others, hweight, hdigit⟩ :=
      digitSum_append_cons (digitValues front) (digitValues back) (by omega)
    rw [digitValues_cons hnew, hdigit] at hsum'
    rw [hdigit] at hsum
    have hsame : e = d := by
      have hd := hold.1
      have he := hnew.1
      rcases hweight with rfl | rfl <;> omega
    exact hsame ▸ hnew

end

/-- The characters of a record. -/
theorem colon_or_digit_of_mem_trim (h : Record.parse line = .ok record) {c : Char}
    (hc : c ∈ trim line) : c = ':' ∨ ∃ d, IsHexDigit c d := by
  obtain ⟨-, digits, htrim, hdigits⟩ := Record.parse_eq_ok_iff.mp h
  rw [htrim] at hc
  rcases List.mem_cons.mp hc with rfl | hdigit
  · exact .inl rfl
  · exact .inr (hdigits.isHexDigit c hdigit)

section

variable {text : List Char} {i : Nat}

theorem getElem?_of_trim (h : (trim text)[i]? = some old) :
    text[(text.takeWhile isBlank).length + i]? = some old := by
  obtain ⟨after, -, htext⟩ := exists_append_trim text
  have hi := (List.getElem?_eq_some_iff.mp h).1
  calc text[(text.takeWhile isBlank).length + i]?
    _ = (text.takeWhile isBlank ++ trim text ++ after)[(text.takeWhile isBlank).length + i]? :=
      congrArg (·[(text.takeWhile isBlank).length + i]?) htext
    _ = (trim text ++ after)[i]? := by
      rw [List.append_assoc, List.getElem?_append_right (Nat.le_add_right ..),
        Nat.add_sub_cancel_left]
    _ = some old := by rw [List.getElem?_append_left hi, h]

theorem exists_set_eq (h : text[i]? = some old) (new : Char) :
    ∃ front back, text = front ++ old :: back ∧ text.set i new = front ++ new :: back := by
  obtain ⟨hi, rfl⟩ := List.getElem?_eq_some_iff.mp h
  obtain ⟨front, back, htext, -, hset⟩ := List.exists_of_set hi
  exact ⟨front, back, htext, hset⟩

end

/-- A record in which one character is replaced by another, and not by the same digit in the other
case, is no record any more. -/
theorem parse_set_eq_error {i : Nat} (h : Record.parse line = .ok record)
    (hold : (trim line)[i]? = some old) (hnew : new ≠ old)
    (hdigit : ∀ d, IsHexDigit old d → ¬IsHexDigit new d) :
    ∃ error, Record.parse (line.set ((line.takeWhile isBlank).length + i) new) = .error error := by
  obtain ⟨front, back, hline, hset⟩ := exists_set_eq (getElem?_of_trim hold) new
  cases hparse : Record.parse (line.set ((line.takeWhile isBlank).length + i) new) with
  | error error => exact ⟨error, rfl⟩
  | ok other =>
    have hlooks := looksRight_of_parse h
    have hother := looksRight_of_parse hparse
    rw [hline] at hlooks
    rw [hset] at hother
    rcases colon_or_digit_of_mem_trim h (List.mem_of_getElem? hold) with rfl | ⟨d, hd⟩
    · exact absurd (hlooks.eq_colon hother) hnew
    · exact absurd (hlooks.isHexDigit hother hd) (hdigit d hd)

theorem parse_set_eq_error_last_digit :
    Record.parse " :00000001FF".toList = .ok ⟨0, .endOfFile, [], 0xFF⟩ ∧
      ∃ error, Record.parse " :00000001Fe".toList = .error error := by
  have hparse : Record.parse " :00000001FF".toList = .ok ⟨0, .endOfFile, [], 0xFF⟩ := by decide
  have hother : ∀ d, IsHexDigit 'F' d → ¬IsHexDigit 'e' d := by
    intro d hold hnew
    rw [hold.unique (show IsHexDigit 'F' 15 from ⟨by decide, by decide⟩)] at hnew
    exact absurd hnew.2 (by decide)
  have hlast : (trim " :00000001FF".toList)[10]? = some 'F' := by decide
  exact ⟨hparse, parse_set_eq_error hparse hlast (by decide) hother⟩

end InfoScreen.Boot
