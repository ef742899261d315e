import InfoScreen.Proofs.Unambiguous
import InfoScreen.Table.BankPath

/-!
# Files of banks stand beside each other

A name that is put behind a directory is the file name of the path that results, and the directory
does not depend on the name.  The names of banks differ in their numbers.  So several banks go into
different files of one directory, whatever the output path looks like.
-/

namespace InfoScreen

namespace Path

structure IsName (part : List Char) : Prop where
  slash_notMem : '/' ∉ part
  notVoid : isVoid part = false
  notUp : part ≠ ['.', '.']

/-- Paths to different files of one directory. -/
structure Beside (path other : List Char) : Prop where
  parent : (ofText path).parent = (ofText other).parent
  names : ∃ name otherName, (ofText path).fileName? = some name ∧
    (ofText other).fileName? = some otherName ∧ name ≠ otherName

theorem splitSlash_ne_nil (text : List Char) : splitSlash text ≠ [] := by
  cases text with
  | nil => simp [splitSlash]
  | cons c rest =>
    rw [splitSlash]
    split
    · simp
    · split <;> simp

theorem splitSlash_append (front back : List Char) :
    splitSlash (front ++ '/' :: back) = splitSlash front ++ splitSlash back := by
  induction front with
  | nil => simp [splitSlash]
  | cons c front ih =>
    rw [List.cons_append, splitSlash, splitSlash, ih]
    by_cases hc : c = '/'
    · rw [if_pos hc, if_pos hc, List.cons_append]
    · rw [if_neg hc, if_neg hc]
      cases hfront : splitSlash front with
      | nil => exact absurd hfront (splitSlash_ne_nil front)
      | cons part more => rfl

theorem splitSlash_of_slash_notMem {name : List Char} (hname : '/' ∉ name) :
    splitSlash name = [name] := by
  induction name with
  | nil => rfl
  | cons c name ih =>
    obtain ⟨hc, hrest⟩ := not_or.mp (mt List.mem_cons.mpr hname)
    rw [splitSlash, if_neg (Ne.symm hc), ih hrest]

theorem slash_notMem_of_mem_splitSlash {text part : List Char} (hpart : part ∈ splitSlash text) :
    '/' ∉ part := by
  induction text generalizing part with
  | nil =>
    obtain rfl := List.mem_singleton.mp hpart
    exact List.not_mem_nil
  | cons c rest ih =>
    rw [splitSlash] at hpart
    split at hpart
    · rcases List.mem_cons.mp hpart with rfl | hpart
      · exact List.not_mem_nil
      · exact ih hpart
    · next hc =>
      cases hrest : splitSlash rest with
      | nil => exact absurd hrest (splitSlash_ne_nil rest)
      | cons first more =>
        rw [hrest] at hpart ih
        rcases List.mem_cons.mp hpart with rfl | hpart
        · rw [List.mem_cons, not_or]
          exact ⟨Ne.symm hc, ih List.mem_cons_self⟩
        · exact ih (List.mem_cons_of_mem _ hpart)

/-! ## The directory and the name of a path -/

theorem dropVoid_append_name {name : List Char} (hname : IsName name) (parts : List (List Char)) :
    dropVoid (parts ++ [name]) = parts ++ [name] := by
  rw [dropVoid, List.reverse_append, List.reverse_singleton, List.singleton_append,
    List.dropWhile_cons_of_neg (by simp [hname.notVoid]), List.reverse_cons, List.reverse_reverse]

theorem mem_of_mem_dropVoid {part : List Char} {parts : List (List Char)}
    (hpart : part ∈ dropVoid parts) : part ∈ parts := by
  rw [dropVoid, List.mem_reverse] at hpart
  exact List.mem_reverse.mp ((List.dropWhile_sublist _).mem hpart)

/-- The parts of a path as they are written down, the start among them. -/
def spelled (path : Path) : List (List Char) :=
  match path.start with
  | .root => [] :: path.parts
  | .dot => ['.'] :: path.parts
  | .unsaid => path.parts

/-- The first part does not look like a start that is written down. -/
def Headed (path : Path) : Prop :=
  path.start = .unsaid → ∀ part ∈ path.parts.head?, isVoid part = false

/-- A text is told by its parts if the last of them is a name. -/
theorem Headed.ofText_eq {path : Path} (h : path.Headed) {text name : List Char}
    (hname : IsName name) (hsplit : splitSlash text = path.spelled ++ [name]) :
    ofText text = ⟨path.start, path.parts ++ [name]⟩ := by
  obtain ⟨start, parts⟩ := path
  have hkept := dropVoid_append_name hname parts
  cases start with
  | root =>
    obtain ⟨part, rest, hparts⟩ : ∃ part rest, parts ++ [name] = part :: rest :=
      List.exists_cons_of_ne_nil (by simp)
    rw [hparts] at hkept ⊢
    rw [ofText, hsplit, spelled, List.cons_append, hparts]
    exact congrArg _ hkept
  | dot =>
    rw [ofText, hsplit, spelled, List.cons_append]
    exact congrArg _ hkept
  | unsaid =>
    -- the first part is that of the directory or, without one, the name itself
    have hfirst : ∀ part ∈ (parts ++ [name]).head?, isVoid part = false := by
      cases parts with
      | nil =>
        intro part hpart
        obtain rfl := Option.some.inj hpart
        exact hname.notVoid
      | cons part rest => exact h rfl
    rw [ofText, hsplit, spelled]
    split
    next heq =>
      rw [heq] at hfirst
      exact absurd (hfirst [] rfl) (by decide)
    next heq =>
      rw [heq] at hfirst
      exact absurd (hfirst ['.'] rfl) (by decide)
    next => exact congrArg _ hkept

theorem exists_spelled_eq (front : List (List Char)) :
    ∃ path : Path, path.Headed ∧ path.spelled = front := by
  match front with
  | [] => exact ⟨⟨.unsaid, []⟩, nofun, rfl⟩
  | first :: rest =>
    by_cases hroot : first = []
    · exact ⟨⟨.root, rest⟩, nofun, by rw [hroot, spelled]⟩
    · by_cases hdot : first = ['.']
      · exact ⟨⟨.dot, rest⟩, nofun, by rw [hdot, spelled]⟩
      · refine ⟨⟨.unsaid, first :: rest⟩, fun _ part hpart ↦ ?_, rfl⟩
        obtain rfl := Option.some.inj hpart
        simp [isVoid, hroot, hdot]

/-- Where a path starts and what its directory is do not depend on its name. -/
theorem exists_ofText_eq (front : List (List Char)) :
    ∃ start parts, ∀ text name, IsName name → splitSlash text = front ++ [name] →
      ofText text = ⟨start, parts ++ [name]⟩ := by
  obtain ⟨path, hpath, rfl⟩ := exists_spelled_eq front
  exact ⟨path.start, path.parts, fun _ _ ↦ hpath.ofText_eq⟩

/-- A name behind a directory is one more part, with or without a slash at the directory's end. -/
theorem exists_splitSlash_append (directory : List Char) :
    ∃ front, ∀ name, IsName name → splitSlash (append directory name) = front ++ [name] := by
  cases hlast : directory.getLast? with
  | none =>
    refine ⟨[], fun name hname ↦ ?_⟩
    rw [append, hlast]
    exact splitSlash_of_slash_notMem hname.slash_notMem
  | some c =>
    by_cases hc : c = '/'
    · obtain ⟨init, hinit⟩ := List.getLast?_eq_some_iff.mp hlast
      refine ⟨splitSlash init, fun name hname ↦ ?_⟩
      simp only [append, hlast, if_pos hc]
      rw [hinit, hc, List.append_assoc, List.singleton_append, splitSlash_append,
        splitSlash_of_slash_notMem hname.slash_notMem]
    · refine ⟨splitSlash directory, fun name hname ↦ ?_⟩
      simp only [append, hlast, if_neg hc]
      rw [splitSlash_append, splitSlash_of_slash_notMem hname.slash_notMem]

theorem fileName?_of_isName {name : List Char} (hname : IsName name) (start : Start)
    (parts : List (List Char)) : fileName? ⟨start, parts ++ [name]⟩ = some name := by
  simp only [fileName?, List.getLast?_concat, if_neg hname.notUp]

/-- Different names behind one directory. -/
theorem beside_append (directory : List Char) {name other : List Char} (hname : IsName name)
    (hother : IsName other) (hne : name ≠ other) :
    Beside (append directory name) (append directory other) := by
  obtain ⟨front, hfront⟩ := exists_splitSlash_append directory
  obtain ⟨start, parts, htext⟩ := exists_ofText_eq front
  have hleft := htext _ name hname (hfront name hname)
  have hright := htext _ other hother (hfront other hother)
  constructor
  · rw [hleft, hright, parent, parent, List.dropLast_concat, List.dropLast_concat]
  · refine ⟨name, other, ?_, ?_, hne⟩
    · rw [hleft, fileName?_of_isName hname]
    · rw [hright, fileName?_of_isName hother]

/-- The name that replaces a file name goes behind a directory that does not depend on it. -/
theorem exists_withFileName_eq (text : List Char) :
    ∃ directory, ∀ name, withFileName text name = append directory name := by
  cases hname : (ofText text).fileName? with
  | none => exact ⟨text, fun name ↦ by simp only [withFileName, hname]⟩
  | some old => exact ⟨(ofText text).parent.text, fun name ↦ by simp only [withFileName, hname]⟩

theorem slash_notMem_of_mem_parts {text part : List Char} (hpart : part ∈ (ofText text).parts) :
    '/' ∉ part := by
  suffices hsplit : part ∈ splitSlash text from slash_notMem_of_mem_splitSlash hsplit
  rw [ofText] at hpart
  split at hpart
  next hsplit =>
    rw [hsplit]
    exact List.mem_cons_of_mem _ (mem_of_mem_dropVoid hpart)
  next hsplit =>
    rw [hsplit]
    exact List.mem_cons_of_mem _ (mem_of_mem_dropVoid hpart)
  next => exact mem_of_mem_dropVoid hpart

theorem slash_notMem_of_fileName? {text name : List Char}
    (hname : (ofText text).fileName? = some name) : '/' ∉ name := by
  rw [fileName?] at hname
  split at hname
  next part hlast =>
    split at hname
    · cases hname
    · obtain rfl := Option.some.inj hname
      exact slash_notMem_of_mem_parts (List.mem_of_getLast? hlast)
  next => cases hname

/-- Stem and extension are made of the characters of the name. -/
theorem stemAndExtension_subset (name : List Char) :
    (stemAndExtension name).1 ⊆ name ∧
      ∀ ext, (stemAndExtension name).2 = some ext → ext ⊆ name := by
  rw [stemAndExtension]
  split
  · exact ⟨List.Subset.refl name, fun ext h ↦ by cases h⟩
  · refine ⟨List.take_subset _ _, fun ext h ↦ ?_⟩
    obtain rfl := Option.some.inj h
    intro c hc
    exact List.mem_reverse.mp ((List.takeWhile_sublist _).mem (List.mem_reverse.mp hc))

end Path

namespace Table

variable {stem : List Char} {extension : Option (List Char)}

theorem bankName_injective (stem : List Char) (extension : Option (List Char)) :
    Function.Injective (bankName stem extension) := by
  intro bank other h
  apply Text.decimalDigits_injective
  cases extension with
  | none => exact List.append_cancel_left h
  | some ext => exact List.append_cancel_left (List.append_cancel_right h)

/-- A bank's name has an underscore, so it is none of the parts that only consist of dots. -/
theorem isName_bankName (hstem : '/' ∉ stem) (hextension : ∀ ext, extension = some ext → '/' ∉ ext)
    (bank : Nat) : Path.IsName (bankName stem extension bank) := by
  have hunderscore : '_' ∈ bankName stem extension bank := by
    cases extension <;> simp [bankName]
  have hother : ∀ part : List Char, '_' ∉ part → bankName stem extension bank ≠ part := by
    rintro part hpart rfl
    exact hpart hunderscore
  refine ⟨?_, ?_, hother _ (by decide)⟩
  · have hdigits := @Text.notMem_decimalDigits '/' (by decide) bank
    cases extension with
    | none => simp [bankName, hstem, hdigits]
    | some ext => simp [bankName, hstem, hdigits, hextension ext rfl]
  · simp [Path.isVoid, hother]

/-- The files of two of several banks stand beside each other. -/
theorem beside_bankPath (output : String) {count bank other : Nat} (hcount : 1 < count)
    (hne : bank ≠ other) :
    Path.Beside (bankPath output bank count).toList (bankPath output other count).toList := by
  have hname : '/' ∉ ((Path.ofText output.toList).fileName?).getD [] := by
    cases hname : (Path.ofText output.toList).fileName? with
    | none => exact List.not_mem_nil
    | some name => exact Path.slash_notMem_of_fileName? hname
  obtain ⟨hstem, hextension⟩ := Path.stemAndExtension_subset
    (((Path.ofText output.toList).fileName?).getD [])
  have hnamed := isName_bankName (fun h ↦ hname (hstem h))
    fun ext hext h ↦ hname (hextension ext hext h)
  obtain ⟨directory, hdirectory⟩ := Path.exists_withFileName_eq output.toList
  simp only [bankPath, if_neg (Nat.not_le_of_lt hcount), String.toList_ofList, hdirectory]
  exact Path.beside_append directory (hnamed bank) (hnamed other)
    ((bankName_injective _ _).ne hne)

end Table

end InfoScreen
