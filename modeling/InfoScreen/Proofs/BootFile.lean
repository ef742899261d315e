import InfoScreen.Boot.Image
import Mathlib.Algebra.Ring.Nat
import Mathlib.Data.List.Forall2

/-!
# Reading the file of a boot program

Of a file those lines are read that are not blank, up to the first one that is an end-of-file
record.  Reading them gives their records in order, or else the error of the first line that is no
record, under its number among all lines of the file.  The program is what the data records hold,
wherever they say that it belongs, if that is not too long.
-/

namespace InfoScreen.Boot

open Text

section Items

variable {α β ε : Type} {read : α → Except ε β} {list rest : List α} {a : α} {values : List β}
  {error : ε}

theorem mapM_cons_eq_ok_iff :
    (a :: rest).mapM read = .ok values ↔
      ∃ b others, read a = .ok b ∧ rest.mapM read = .ok others ∧ values = b :: others := by
  rw [List.mapM_cons]
  cases read a <;> cases rest.mapM read <;> simp [bind, Except.bind, pure, Except.pure, eq_comm]

theorem mapM_cons_eq_error_iff :
    (a :: rest).mapM read = .error error ↔
      read a = .error error ∨ (∃ b, read a = .ok b) ∧ rest.mapM read = .error error := by
  rw [List.mapM_cons]
  cases read a <;> cases rest.mapM read <;> simp [bind, Except.bind, pure, Except.pure]

theorem mapM_eq_ok_iff :
    list.mapM read = .ok values ↔ List.Forall₂ (fun a b ↦ read a = .ok b) list values := by
  induction list generalizing values with
  | nil =>
    rw [List.mapM_nil, List.forall₂_nil_left_iff]
    exact ⟨fun h ↦ (Except.ok.inj h).symm, fun h ↦ congrArg Except.ok h.symm⟩
  | cons a rest ih =>
    rw [mapM_cons_eq_ok_iff, List.forall₂_cons_left_iff]
    simp only [ih]

/-- The first item that cannot be read decides the error. -/
theorem mapM_eq_error_iff :
    list.mapM read = .error error ↔ ∃ before a after, list = before ++ a :: after ∧
      (∀ b ∈ before, ∃ value, read b = .ok value) ∧ read a = .error error := by
  induction list with
  | nil =>
    constructor
    · intro h
      cases h
    · rintro ⟨before, a, after, hlist, -⟩
      simp at hlist
  | cons first rest ih =>
    rw [mapM_cons_eq_error_iff, ih]
    constructor
    · rintro (hfirst | ⟨hfirst, before, a, after, rfl, hbefore, ha⟩)
      · exact ⟨[], first, rest, rfl, by simp, hfirst⟩
      · refine ⟨first :: before, a, after, rfl, ?_, ha⟩
        exact List.forall_mem_cons.mpr ⟨hfirst, hbefore⟩
    · rintro ⟨before, a, after, hlist, hbefore, ha⟩
      rcases List.cons_eq_append_iff.mp hlist with ⟨rfl, hrest⟩ | ⟨tail, rfl, hrest⟩
      · obtain ⟨rfl, rfl⟩ := List.cons.inj hrest
        exact .inl ha
      · obtain ⟨hfirst, htail⟩ := List.forall_mem_cons.mp hbefore
        exact .inr ⟨hfirst, tail, a, after, hrest, htail, ha⟩

end Items

/-! ## The lines that are read -/

abbrev NumberedLine := List Char × Nat

def endsFile (line : List Char) : Bool :=
  (Record.parse line).toOption.any fun record ↦ record.kind = .endOfFile

/-- Of some lines those that are not blank, up to the first that is an end-of-file record. -/
def relevant (numbered : List NumberedLine) : List NumberedLine :=
  let written := numbered.filter fun line ↦ trim line.1 ≠ []
  let before := written.takeWhile fun line ↦ !endsFile line.1
  before ++ (written.drop before.length).take 1

/-- The lines of a file that are read.  Lines are numbered from one, the blank ones included. -/
def relevantLines (text : List Char) : List NumberedLine := relevant ((lines text).zipIdx 1)

def readLine (line : NumberedLine) : Except BootError Record :=
  (Record.parse line.1).mapError (.record line.2)

variable {line : NumberedLine} {numbered : List NumberedLine}

theorem endsFile_iff {line : List Char} :
    endsFile line = true ↔ ∃ record, Record.parse line = .ok record ∧ record.kind = .endOfFile := by
  cases hparse : Record.parse line <;> simp [endsFile, hparse, Except.toOption]

theorem readLine_eq_ok_iff {record : Record} :
    readLine line = .ok record ↔ Record.parse line.1 = .ok record := by
  cases hparse : Record.parse line.1 <;> simp [readLine, hparse, Except.mapError]

theorem readLine_eq_error_iff {error : BootError} :
    readLine line = .error error ↔
      ∃ reason, Record.parse line.1 = .error reason ∧ error = .record line.2 reason := by
  cases hparse : Record.parse line.1 <;> simp [readLine, hparse, Except.mapError, eq_comm]

/-- A blank line is no record. -/
theorem trim_ne_nil_of_endsFile {line : List Char} (h : endsFile line = true) : trim line ≠ [] := by
  obtain ⟨record, hparse, -⟩ := endsFile_iff.mp h
  intro hblank
  rw [Record.parse, hblank] at hparse
  cases hparse

theorem relevant_cons_of_blank (hblank : trim line.1 = []) :
    relevant (line :: numbered) = relevant numbered := by
  rw [relevant, List.filter_cons_of_neg (by simpa using hblank)]
  rfl

theorem relevant_cons_of_endsFile (hends : endsFile line.1 = true) :
    relevant (line :: numbered) = [line] := by
  have hwritten := trim_ne_nil_of_endsFile hends
  rw [relevant, List.filter_cons_of_pos (by simpa using hwritten)]
  simp [hends]

theorem relevant_cons (hwritten : trim line.1 ≠ []) (hends : endsFile line.1 = false) :
    relevant (line :: numbered) = line :: relevant numbered := by
  rw [relevant, List.filter_cons_of_pos (by simpa using hwritten)]
  simp [hends, relevant]

/-- What is behind an end-of-file record does not matter. -/
theorem relevant_append (hends : endsFile line.1 = true) (front back : List NumberedLine) :
    relevant (front ++ line :: back) = relevant (front ++ [line]) := by
  induction front with
  | nil => rw [List.nil_append, List.nil_append, relevant_cons_of_endsFile hends,
      relevant_cons_of_endsFile hends]
  | cons first front ih =>
    rw [List.cons_append, List.cons_append]
    by_cases hblank : trim first.1 = []
    · rw [relevant_cons_of_blank hblank, relevant_cons_of_blank hblank, ih]
    · cases hfirst : endsFile first.1 with
      | true => rw [relevant_cons_of_endsFile hfirst, relevant_cons_of_endsFile hfirst]
      | false => rw [relevant_cons hblank hfirst, relevant_cons hblank hfirst, ih]

/-- Line by line, in the three ways in which a line can count. -/
theorem recordsOfLines_eq (number : Nat) (rest : List (List Char)) :
    recordsOfLines number rest = (relevant (rest.zipIdx number)).mapM readLine := by
  induction rest generalizing number with
  | nil => rfl
  | cons line rest ih =>
    rw [recordsOfLines, List.zipIdx_cons]
    by_cases hblank : trim line = []
    · rw [if_pos hblank, relevant_cons_of_blank hblank, ih]
    · rw [if_neg hblank]
      cases hparse : Record.parse line with
      | error reason =>
        have hends : endsFile line = false := by simp [endsFile, hparse, Except.toOption]
        have hread : readLine (line, number) = .error (.record number reason) :=
          readLine_eq_error_iff.mpr ⟨reason, hparse, rfl⟩
        rw [relevant_cons hblank hends, List.mapM_cons, hread]
        rfl
      | ok record =>
        have hread : readLine (line, number) = .ok record := readLine_eq_ok_iff.mpr hparse
        by_cases hkind : record.kind = .endOfFile
        · have hends : endsFile line = true := endsFile_iff.mpr ⟨record, hparse, hkind⟩
          rw [relevant_cons_of_endsFile hends, List.mapM_cons, hread]
          simp only [hkind, if_true]
          rfl
        · have hends : endsFile line = false := by simp [endsFile, hparse, Except.toOption, hkind]
          rw [relevant_cons hblank hends, List.mapM_cons, hread]
          simp only [hkind, if_false, ih]
          cases (relevant (rest.zipIdx (number + 1))).mapM readLine <;> rfl

theorem records_eq (text : List Char) : records text = (relevantLines text).mapM readLine :=
  recordsOfLines_eq 1 (lines text)

/-- Files that agree up to an end-of-file record have the same records. -/
theorem records_eq_of_endsFile {text other : List Char} {front back otherBack : List (List Char)}
    {last : List Char} (hends : endsFile last = true) (htext : lines text = front ++ last :: back)
    (hother : lines other = front ++ last :: otherBack) : records other = records text := by
  have hrelevant : relevantLines other = relevantLines text := by
    rw [relevantLines, relevantLines, htext, hother, List.zipIdx_append, List.zipIdx_append,
      List.zipIdx_cons, List.zipIdx_cons, relevant_append hends,
      relevant_append hends (front.zipIdx 1) (back.zipIdx _)]
  rw [records_eq, records_eq, hrelevant]

/-! ## The program -/

def payloads (records : List Record) : List (List UInt8) :=
  (records.filter fun record ↦ record.kind = .data).map Record.data

def totalLength (records : List Record) : Nat := ((payloads records).map List.length).sum

theorem payload_eq (records : List Record) :
    Image.payload records = (payloads records).flatten := by
  rw [Image.payload, List.flatMap_def]
  rfl

theorem length_payload (records : List Record) :
    (Image.payload records).length = totalLength records := by
  rw [payload_eq, List.length_flatten]
  rfl

theorem ofRecords_eq_ok_iff {found : List Record} {image : Image} :
    Image.ofRecords found = .ok image ↔
      totalLength found ≤ maxLength ∧ image.bytes = (payloads found).flatten := by
  rw [← length_payload, ← payload_eq, Image.ofRecords]
  obtain ⟨bytes, hlength⟩ := image
  split
  next hle => simp [hle, eq_comm]
  next hlong => simp [hlong]

theorem ofRecords_eq_error_iff {found : List Record} {error : BootError} :
    Image.ofRecords found = .error error ↔
      maxLength < totalLength found ∧ error = .imageTooLarge (totalLength found) := by
  rw [← length_payload, Image.ofRecords]
  split
  next hle => simp [Nat.not_lt_of_le hle]
  next hlong => simp [Nat.lt_of_not_le hlong, eq_comm]

structure ReadsFile (text : List Char) : Prop where
  /-- If every relevant line is a record, these records are read, in the order of the lines. -/
  records_ok : ∀ found, records text = .ok found ↔
    List.Forall₂ (fun line record ↦ Record.parse line.1 = .ok record) (relevantLines text) found
  /-- Otherwise the first that is none decides the error, under its number in the file. -/
  records_error : ∀ error, records text = .error error ↔ ∃ before line after reason,
    relevantLines text = before ++ line :: after ∧
      (∀ other ∈ before, ∃ record, Record.parse other.1 = .ok record) ∧
      Record.parse line.1 = .error reason ∧ error = .record line.2 reason
  /-- Nothing behind an end-of-file record changes what is read. -/
  ended : ∀ other front last back otherBack, endsFile last = true →
    lines text = front ++ last :: back → lines other = front ++ last :: otherBack →
      records other = records text ∧ Image.ofText other = Image.ofText text
  image_ok : ∀ image, Image.ofText text = .ok image ↔ ∃ found, records text = .ok found ∧
    totalLength found ≤ 255 ∧ image.bytes = (payloads found).flatten
  image_error : ∀ error, Image.ofText text = .error error ↔ records text = .error error ∨
    ∃ found, records text = .ok found ∧ 255 < totalLength found ∧
      error = .imageTooLarge (totalLength found)
  length_le : ∀ image, Image.ofText text = .ok image → image.bytes.length ≤ 255

/-- Every file is read line by line up to its end-of-file record, and packed if there is room. -/
theorem readsFile (text : List Char) : ReadsFile text where
  records_ok := by
    intro found
    rw [records_eq, mapM_eq_ok_iff]
    simp only [readLine_eq_ok_iff]
  records_error := by
    intro error
    rw [records_eq, mapM_eq_error_iff]
    simp only [readLine_eq_ok_iff, readLine_eq_error_iff, exists_and_left]
  ended := by
    intro other front last back otherBack hends htext hother
    have hrecords := records_eq_of_endsFile hends htext hother
    exact ⟨hrecords, by rw [Image.ofText, Image.ofText, hrecords]⟩
  image_ok := by
    intro image
    rw [Image.ofText]
    cases hrecords : records text with
    | error error => simp
    | ok found =>
      simp only [ofRecords_eq_ok_iff, Except.ok.injEq, exists_eq_left']
      rfl
  image_error := by
    intro error
    rw [Image.ofText]
    cases hrecords : records text with
    | error other => simp
    | ok found =>
      simp only [ofRecords_eq_error_iff, reduceCtorEq, false_or, Except.ok.injEq, exists_eq_left']
      rfl
  length_le := fun image _ ↦ image.length_le

end InfoScreen.Boot
