import InfoScreen.Proofs.BankPaths
import Mathlib.Data.List.DropRight

/-!
# Files of banks stand beside the given file

A path is told from others by where it starts and by the parts that name something.  Another file
name in the place of its own leaves the directory, however the path is spelled.  The number of a
bank goes in front of the extension, which stays, and makes the name another one.  So the files of
several banks stand in the directory of the given path, with its extension, and none is the given
file or the file of another bank.
-/

namespace InfoScreen

namespace Path

/-- The path without the parts that name nothing.  Paths are the same if they agree in this. -/
def named (path : Path) : Path := { path with parts := path.parts.filter fun part ↦ !isVoid part }

def extension? (path : Path) : Option (List Char) :=
  path.fileName?.bind fun name ↦ (stemAndExtension name).2

/-- Paths to two files of one directory that have the same extension, or none. -/
structure Sibling (path other : List Char) : Prop where
  ne : (ofText path).named ≠ (ofText other).named
  parent : (ofText path).parent = (ofText other).parent
  extension : (ofText path).extension? = (ofText other).extension?

/-! ## Stems and extensions -/

/-- A name with its stem and its extension. -/
inductive Divides : List Char → List Char → Option (List Char) → Prop
  /-- The name has no dot, except at its beginning. -/
  | whole {name : List Char} (hname : '.' ∉ name.tail) : Divides name name none
  | cut {stem extension : List Char} (hstem : stem ≠ []) (hextension : '.' ∉ extension) :
      Divides (stem ++ '.' :: extension) stem (some extension)

/-- What is behind the last dot of a name; a name without a dot, all of it. -/
def lastRun (name : List Char) : List Char := (name.reverse.takeWhile (· ≠ '.')).reverse

theorem stemAndExtension_eq_ite (name : List Char) :
    stemAndExtension name =
      if name.take (name.length - (lastRun name).length - 1) = [] then (name, none)
      else (name.take (name.length - (lastRun name).length - 1), some (lastRun name)) := rfl

theorem ne_dot_of_mem_reverse {run : List Char} (hrun : '.' ∉ run) :
    ∀ c ∈ run.reverse, decide (c ≠ '.') = true := by
  intro c hc
  rw [decide_eq_true_eq]
  rintro rfl
  exact hrun (List.mem_reverse.mp hc)

theorem lastRun_append (front : List Char) {run : List Char} (hrun : '.' ∉ run) :
    lastRun (front ++ '.' :: run) = run := by
  rw [lastRun, List.reverse_append, List.reverse_cons, List.append_assoc,
    List.takeWhile_append_of_pos (ne_dot_of_mem_reverse hrun), List.singleton_append,
    List.takeWhile_cons_of_neg (by decide), List.append_nil, List.reverse_reverse]

theorem lastRun_of_dot_notMem {name : List Char} (hname : '.' ∉ name) : lastRun name = name := by
  rw [lastRun, List.takeWhile_eq_self_iff.mpr (ne_dot_of_mem_reverse hname), List.reverse_reverse]

theorem exists_divides (name : List Char) : ∃ stem extension, Divides name stem extension := by
  by_cases hdot : '.' ∈ name
  · obtain ⟨back, front, hname, hback⟩ :=
      List.eq_append_cons_of_mem (List.mem_reverse.mpr hdot)
    obtain rfl : name = front.reverse ++ '.' :: back.reverse := by
      rw [← name.reverse_reverse, hname]
      simp
    have hextension : '.' ∉ back.reverse := mt List.mem_reverse.mp hback
    by_cases hstem : front.reverse = []
    · rw [hstem]
      exact ⟨_, none, .whole hextension⟩
    · exact ⟨_, _, .cut hstem hextension⟩
  · exact ⟨name, none, .whole (mt List.mem_of_mem_tail hdot)⟩

theorem Divides.stemAndExtension_eq {name stem : List Char} {extension : Option (List Char)}
    (h : Divides name stem extension) : stemAndExtension name = (stem, extension) := by
  rw [stemAndExtension_eq_ite]
  cases h with
  | whole hname =>
    -- nothing is left for a stem: there is no dot, or the only one comes first
    have hshort : name.length - (lastRun name).length - 1 = 0 := by
      by_cases hdot : '.' ∈ name
      · obtain ⟨c, rest, rfl⟩ := List.exists_cons_of_ne_nil (List.ne_nil_of_mem hdot)
        obtain rfl : '.' = c := (List.mem_cons.mp hdot).resolve_right hname
        have hrun : lastRun ('.' :: rest) = rest := lastRun_append [] hname
        rw [hrun, List.length_cons]
        omega
      · rw [lastRun_of_dot_notMem hdot]
        omega
    rw [hshort, List.take_zero, if_pos rfl]
  | @cut _ extension hstem hextension =>
    have hlength : (stem ++ '.' :: extension).length - extension.length - 1 = stem.length := by
      rw [List.length_append, List.length_cons]
      omega
    rw [lastRun_append stem hextension, hlength, List.take_left, if_neg hstem]

theorem divides_stemAndExtension (name : List Char) :
    Divides name (stemAndExtension name).1 (stemAndExtension name).2 := by
  obtain ⟨stem, extension, h⟩ := exists_divides name
  rwa [h.stemAndExtension_eq]

/-! ## The directory of a path -/

theorem dropVoid_eq (parts : List (List Char)) : dropVoid parts = parts.rdropWhile isVoid := rfl

theorem dropVoid_dropVoid (parts : List (List Char)) :
    dropVoid (dropVoid parts) = dropVoid parts := by
  rw [dropVoid_eq, dropVoid_eq, List.rdropWhile_idempotent]

theorem prefix_dropVoid (parts : List (List Char)) : dropVoid parts <+: parts :=
  List.rdropWhile_prefix isVoid parts

theorem mem_head?_of_front {front parts : List (List Char)} {part : List Char}
    (hfront : front <+: parts) (hpart : part ∈ front.head?) : part ∈ parts.head? := by
  obtain ⟨rest, rfl⟩ := hfront
  exact List.mem_head?_append_of_mem_head? hpart

theorem isVoid_of_mem_getLast? {parts : List (List Char)} {part : List Char}
    (hpart : part ∈ (dropVoid parts).getLast?) : isVoid part = false := by
  have hfirst := List.head?_dropWhile_not isVoid parts.reverse
  rw [dropVoid, List.getLast?_reverse, Option.mem_def] at hpart
  rwa [hpart] at hfirst

/-- What can be a directory: its parts have no slashes, and the last names something. -/
structure IsDirectory (path : Path) : Prop where
  slash_notMem : ∀ part ∈ path.parts, '/' ∉ part
  last : ∀ part ∈ path.parts.getLast?, isVoid part = false
  headed : path.Headed

theorem isDirectory_ofText (text : List Char) : IsDirectory (ofText text) where
  slash_notMem part := slash_notMem_of_mem_parts
  last := by
    unfold ofText
    split <;> exact fun _ ↦ isVoid_of_mem_getLast?
  headed := by
    unfold ofText
    split
    next => exact nofun
    next => exact nofun
    next hroot hdot =>
      intro _ part hpart
      obtain ⟨rest, hsplit⟩ :=
        List.head?_eq_some_iff.mp (mem_head?_of_front (prefix_dropVoid _) hpart)
      rw [isVoid, decide_eq_false_iff_not, not_or]
      constructor
      · rintro rfl
        cases rest with
        | nil =>
          rw [hsplit] at hpart
          cases hpart
        | cons next rest => exact hroot next rest hsplit
      · rintro rfl
        exact hdot rest hsplit

theorem prefix_parent (path : Path) : path.parent.parts <+: path.parts :=
  (prefix_dropVoid _).trans (List.dropLast_prefix _)

theorem IsDirectory.parent {path : Path} (h : IsDirectory path) : IsDirectory path.parent where
  slash_notMem part hpart := h.slash_notMem part ((prefix_parent path).subset hpart)
  last _ := isVoid_of_mem_getLast?
  headed hstart part hpart := h.headed hstart part (mem_head?_of_front (prefix_parent path) hpart)

theorem splitSlash_joinSlash {parts : List (List Char)} (hne : parts ≠ [])
    (hparts : ∀ part ∈ parts, '/' ∉ part) : splitSlash (joinSlash parts) = parts := by
  induction parts with
  | nil => exact absurd rfl hne
  | cons part rest ih =>
    obtain ⟨hpart, hrest⟩ := List.forall_mem_cons.mp hparts
    cases rest with
    | nil => exact splitSlash_of_slash_notMem hpart
    | cons next rest =>
      rw [joinSlash, splitSlash_append, splitSlash_of_slash_notMem hpart,
        ih (List.cons_ne_nil _ _) hrest]
      · rfl
      · exact nofun

theorem joinSlash_concat {parts : List (List Char)} (hne : parts ≠ []) (name : List Char) :
    joinSlash (parts ++ [name]) = joinSlash parts ++ '/' :: name := by
  induction parts with
  | nil => exact absurd rfl hne
  | cons part rest ih =>
    cases rest with
    | nil => rfl
    | cons next rest =>
      calc
        joinSlash (part :: next :: rest ++ [name]) =
            part ++ '/' :: joinSlash (next :: rest ++ [name]) := rfl
        _ = part ++ '/' :: (joinSlash (next :: rest) ++ '/' :: name) := by
          rw [ih (List.cons_ne_nil _ _)]
        _ = joinSlash (part :: next :: rest) ++ '/' :: name := by
          rw [← List.cons_append, ← List.append_assoc]
          rfl

theorem getLast?_joinSlash (front : List (List Char)) {last : List Char} {c : Char}
    (hc : last.getLast? = some c) : (joinSlash (front ++ [last])).getLast? = some c := by
  by_cases hfront : front = []
  · rw [hfront]
    exact hc
  · rw [joinSlash_concat hfront, ← List.singleton_append, ← List.append_assoc,
      List.getLast?_append, hc]
    rfl

theorem append_of_getLast? {directory : List Char} {c : Char} (hlast : directory.getLast? = some c)
    (hc : c ≠ '/') (name : List Char) : append directory name = directory ++ '/' :: name := by
  simp only [append, hlast, if_neg hc]

theorem text_eq {path : Path} (hne : path.parts ≠ []) : path.text = joinSlash path.spelled := by
  obtain ⟨start, parts⟩ := path
  obtain ⟨part, rest, rfl⟩ := List.exists_cons_of_ne_nil hne
  cases start <;> rfl

theorem exists_spelled_eq_concat {path : Path} {init : List (List Char)} {last : List Char}
    (hparts : path.parts = init ++ [last]) : ∃ front, path.spelled = front ++ [last] := by
  unfold spelled
  rw [hparts]
  split
  · exact ⟨[] :: init, rfl⟩
  · exact ⟨['.'] :: init, rfl⟩
  · exact ⟨init, rfl⟩

/-- A name goes behind a directory as one more part. -/
theorem IsDirectory.append_eq {path : Path} (h : IsDirectory path) (name : List Char) :
    append path.text name = joinSlash (path.spelled ++ [name]) := by
  rcases List.eq_nil_or_concat' path.parts with hparts | ⟨init, last, hparts⟩
  · obtain ⟨start, parts⟩ := path
    obtain rfl : parts = [] := hparts
    cases start <;> rfl
  · have hlast : last ≠ [] := by
      rintro rfl
      exact absurd (h.last [] (by simp [hparts])) (by decide)
    obtain ⟨c, hc⟩ : ∃ c, last.getLast? = some c := ⟨_, List.getLast?_eq_some_getLast hlast⟩
    have hslash : c ≠ '/' := by
      rintro rfl
      exact h.slash_notMem last (by simp [hparts]) (List.mem_of_getLast? hc)
    obtain ⟨front, hspelled⟩ := exists_spelled_eq_concat hparts
    rw [text_eq (by simp [hparts]), joinSlash_concat (by simp [hspelled])]
    refine append_of_getLast? ?_ hslash _
    rw [hspelled, getLast?_joinSlash front hc]

theorem IsDirectory.slash_notMem_spelled {path : Path} (h : IsDirectory path) :
    ∀ part ∈ path.spelled, '/' ∉ part := by
  have hparts := h.slash_notMem
  unfold spelled
  split
  · exact List.forall_mem_cons.mpr ⟨by decide, hparts⟩
  · exact List.forall_mem_cons.mpr ⟨by decide, hparts⟩
  · exact hparts

theorem IsDirectory.ofText_append {path : Path} (h : IsDirectory path) {name : List Char}
    (hname : IsName name) :
    ofText (append path.text name) = ⟨path.start, path.parts ++ [name]⟩ := by
  apply h.headed.ofText_eq hname
  rw [h.append_eq]
  apply splitSlash_joinSlash (by simp)
  intro part hpart
  rcases List.mem_append.mp hpart with hspelled | hlast
  · exact h.slash_notMem_spelled part hspelled
  · obtain rfl := List.mem_singleton.mp hlast
    exact hname.slash_notMem

theorem parent_concat (start : Start) (parts : List (List Char)) (name : List Char) :
    parent ⟨start, parts ++ [name]⟩ = ⟨start, dropVoid parts⟩ := by
  rw [parent, List.dropLast_concat]

/-- Another name in the place of the file name leaves the directory. -/
theorem withFileName_eq {text old new : List Char} (hold : (ofText text).fileName? = some old)
    (hnew : IsName new) :
    (ofText (withFileName text new)).parent = (ofText text).parent ∧
      (ofText (withFileName text new)).fileName? = some new := by
  have htext : ofText (withFileName text new) =
      ⟨(ofText text).start, (ofText text).parent.parts ++ [new]⟩ := by
    simp only [withFileName, hold]
    exact (isDirectory_ofText text).parent.ofText_append hnew
  constructor
  · rw [htext, parent_concat, parent, dropVoid_dropVoid]
  · rw [htext, fileName?_of_isName hnew]

theorem fileName?_eq_some_iff {path : Path} {name : List Char} :
    path.fileName? = some name ↔ path.parts.getLast? = some name ∧ name ≠ ['.', '.'] := by
  rw [fileName?]
  cases hlast : path.parts.getLast? with
  | none => simp
  | some part =>
    simp only [Option.ite_none_left_eq_some, Option.some.injEq]
    constructor
    · rintro ⟨hup, rfl⟩
      exact ⟨rfl, hup⟩
    · rintro ⟨rfl, hup⟩
      exact ⟨hup, rfl⟩

/-- Paths that are the same have the same file name. -/
theorem fileName?_named {text name : List Char} (hname : (ofText text).fileName? = some name) :
    (ofText text).named.fileName? = some name := by
  obtain ⟨hlast, hup⟩ := fileName?_eq_some_iff.mp hname
  have hvoid := (isDirectory_ofText text).last name hlast
  obtain ⟨init, hinit⟩ := List.getLast?_eq_some_iff.mp hlast
  apply fileName?_eq_some_iff.mpr ⟨_, hup⟩
  rw [named, hinit, List.filter_append, List.filter_cons_of_pos (by simp [hvoid]),
    List.filter_nil, List.getLast?_concat]

theorem named_ne {text other name otherName : List Char}
    (hname : (ofText text).fileName? = some name)
    (hother : (ofText other).fileName? = some otherName) (hne : name ≠ otherName) :
    (ofText text).named ≠ (ofText other).named := by
  intro hsame
  have hnames := fileName?_named hname
  rw [hsame, fileName?_named hother] at hnames
  exact hne (Option.some.inj hnames).symm

end Path

namespace Table

open InfoScreen.Path

variable {name stem : List Char} {extension : Option (List Char)}

theorem dot_notMem_suffix (bank : Nat) : '.' ∉ "_bank".toList ++ Text.decimalDigits bank := by
  rw [List.mem_append, not_or]
  exact ⟨by decide, Text.notMem_decimalDigits (by decide) bank⟩

/-- The number of a bank becomes part of the stem. -/
theorem divides_bankName (h : Divides name stem extension) (bank : Nat) :
    Divides (bankName stem extension bank) (stem ++ "_bank".toList ++ Text.decimalDigits bank)
      extension := by
  cases h with
  | whole hname =>
    have hsuffix := dot_notMem_suffix bank
    apply Divides.whole
    change '.' ∉ (name ++ "_bank".toList ++ Text.decimalDigits bank).tail
    rw [List.append_assoc]
    cases name with
    | nil => exact mt List.mem_of_mem_tail hsuffix
    | cons c rest =>
      rw [List.cons_append, List.tail_cons, List.mem_append, not_or]
      exact ⟨hname, hsuffix⟩
  | cut hstem hextension => exact .cut (by simp) hextension

theorem bankName_ne (h : Divides name stem extension) (bank : Nat) :
    bankName stem extension bank ≠ name := by
  have hlonger : name.length < (bankName stem extension bank).length := by
    cases h with
    | whole => simp [bankName]
    | cut =>
      simp only [bankName, List.length_append, List.length_cons]
      have hmark : "_bank".toList.length = 5 := by decide
      omega
  intro hsame
  rw [hsame] at hlonger
  exact Nat.lt_irrefl _ hlonger

variable {output : String} {count bank other : Nat}

/-- The file of a bank, by its directory and its name. -/
theorem bankPath_placed (hname : (ofText output.toList).fileName? = some name)
    (hcount : 1 < count) (bank : Nat) :
    (ofText (bankPath output bank count).toList).parent = (ofText output.toList).parent ∧
      (ofText (bankPath output bank count).toList).fileName? =
        some (bankName (stemAndExtension name).1 (stemAndExtension name).2 bank) := by
  have hslash := slash_notMem_of_fileName? hname
  obtain ⟨hstem, hextension⟩ := stemAndExtension_subset name
  have hnamed := isName_bankName (fun h ↦ hslash (hstem h))
    (fun ext hext h ↦ hslash (hextension ext hext h)) bank
  simp only [bankPath, if_neg (Nat.not_le_of_lt hcount), hname, Option.getD_some,
    String.toList_ofList]
  exact withFileName_eq hname hnamed

theorem extension?_bankPath (hname : (ofText output.toList).fileName? = some name)
    (hcount : 1 < count) (bank : Nat) :
    (ofText (bankPath output bank count).toList).extension? =
      (ofText output.toList).extension? := by
  have hdivides := divides_bankName (divides_stemAndExtension name) bank
  rw [extension?, extension?, (bankPath_placed hname hcount bank).2, hname, Option.bind_some,
    Option.bind_some, hdivides.stemAndExtension_eq]

/-- The files of two of several banks stand beside the given file and beside each other. -/
theorem siblings_bankPath (hname : (ofText output.toList).fileName? = some name)
    (hcount : 1 < count) (hne : bank ≠ other) :
    Sibling output.toList (bankPath output bank count).toList ∧
      Sibling output.toList (bankPath output other count).toList ∧
      Sibling (bankPath output bank count).toList (bankPath output other count).toList := by
  have hgiven : ∀ bank, Sibling output.toList (bankPath output bank count).toList := by
    intro bank
    obtain ⟨hparent, hfile⟩ := bankPath_placed hname hcount bank
    have hother := bankName_ne (divides_stemAndExtension name) bank
    exact ⟨named_ne hname hfile hother.symm, hparent.symm,
      (extension?_bankPath hname hcount bank).symm⟩
  have hfile := (bankPath_placed hname hcount bank).2
  have hfile' := (bankPath_placed hname hcount other).2
  have hnames := (bankName_injective (stemAndExtension name).1 (stemAndExtension name).2).ne hne
  refine ⟨hgiven bank, hgiven other, named_ne hfile hfile' hnames, ?_, ?_⟩
  · rw [← (hgiven bank).parent, (hgiven other).parent]
  · rw [← (hgiven bank).extension, (hgiven other).extension]

/-- A path that is not spelled shortest, to a file whose name is already that of a bank. -/
theorem siblings_bankPath_of_bank :
    (ofText "./rom//.cpu_bank1.tar/.".toList).fileName? = some ".cpu_bank1.tar".toList ∧
    1 < 11 ∧ 1 ≠ 10 ∧
    Sibling "./rom//.cpu_bank1.tar/.".toList
      (bankPath "./rom//.cpu_bank1.tar/." 1 11).toList ∧
    Sibling "./rom//.cpu_bank1.tar/.".toList
      (bankPath "./rom//.cpu_bank1.tar/." 10 11).toList ∧
    Sibling (bankPath "./rom//.cpu_bank1.tar/." 1 11).toList
      (bankPath "./rom//.cpu_bank1.tar/." 10 11).toList := by
  have hname : (ofText "./rom//.cpu_bank1.tar/.".toList).fileName? =
      some ".cpu_bank1.tar".toList := by decide
  exact ⟨hname, by decide, by decide, siblings_bankPath hname (by decide) (by decide)⟩

end Table

end InfoScreen
