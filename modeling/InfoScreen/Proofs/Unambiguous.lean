import InfoScreen.Proofs.Digits

/-!
# Texts that can be taken apart

A text that is put together from the texts of several values can be taken apart again if it tells
where each of them ends.  Some values tell this themselves.  A run of digits ends where the first
other character stands, so it needs a mark behind it that begins with one.
-/

namespace InfoScreen.Text

section Values

variable {α β : Type} {write : α → List Char} {mark : List Char}

/-- The text of a value tells the value and where its text ends, whatever comes behind. -/
def PrefixFree (write : α → List Char) : Prop :=
  ∀ ⦃a b : α⦄ ⦃rest other : List Char⦄, write a ++ rest = write b ++ other → a = b ∧ rest = other

/-- The text of a value tells the value and where its text ends, if the mark comes behind. -/
def Delimited (mark : List Char) (write : α → List Char) : Prop :=
  ∀ ⦃a b : α⦄ ⦃rest other : List Char⦄,
    write a ++ (mark ++ rest) = write b ++ (mark ++ other) → a = b ∧ rest = other

/-- What can be read is told by its text. -/
theorem PrefixFree.of_read (read : List Char → Option (α × List Char))
    (hread : ∀ a rest, read (write a ++ rest) = some (a, rest)) : PrefixFree write := by
  intro a b rest other h
  have hpair : some (a, rest) = some (b, other) := by
    rw [← hread a rest, h, hread b other]
  exact Prod.mk.inj (Option.some.inj hpair)

theorem PrefixFree.delimited (hwrite : PrefixFree write) (mark : List Char) :
    Delimited mark write := by
  intro a b rest other h
  obtain ⟨hvalue, hrest⟩ := hwrite h
  exact ⟨hvalue, List.append_cancel_left hrest⟩

theorem Delimited.comp {f : β → α} (hwrite : Delimited mark write) (hf : f.Injective) :
    Delimited mark fun b ↦ write (f b) := by
  intro a b rest other h
  obtain ⟨hvalue, hrest⟩ := hwrite h
  exact ⟨hf hvalue, hrest⟩

/-- Two texts of which neither begins the other tell which of the two it is. -/
theorem prefixFree_ite {yes no : String}
    (hdiffer : ∀ rest other, yes.toList ++ rest ≠ no.toList ++ other) :
    PrefixFree fun b : Bool ↦ (if b then yes else no).toList := by
  intro b c rest other h
  cases b with
  | false =>
    cases c with
    | false => exact ⟨rfl, List.append_cancel_left h⟩
    | true => exact absurd h.symm (hdiffer other rest)
  | true =>
    cases c with
    | false => exact absurd h (hdiffer rest other)
    | true => exact ⟨rfl, List.append_cancel_left h⟩

theorem takeWhile_append_mark {p : Char → Bool} {run : List Char} (hrun : ∀ c ∈ run, p c = true)
    (hmark : mark.head?.any (fun c ↦ !p c) = true) (rest : List Char) :
    (run ++ (mark ++ rest)).takeWhile p = run := by
  have hstop : (mark ++ rest).takeWhile p = [] := by
    cases mark with
    | nil => simp at hmark
    | cons c mark =>
      rw [List.cons_append, List.takeWhile_cons_of_neg (by simpa using hmark)]
  rw [List.takeWhile_append_of_pos hrun, hstop, List.append_nil]

/-- A run of characters of one kind ends where the mark begins with a character of another. -/
theorem delimited_of_run (p : Char → Bool) (hrun : ∀ a, ∀ c ∈ write a, p c = true)
    (hinj : write.Injective) (hmark : mark.head?.any (fun c ↦ !p c) = true) :
    Delimited mark write := by
  intro a b rest other h
  have htext : write a = write b := by
    rw [← takeWhile_append_mark (hrun a) hmark rest, h, takeWhile_append_mark (hrun b) hmark other]
  rw [htext] at h
  exact ⟨hinj htext, List.append_cancel_left (List.append_cancel_left h)⟩

/-! ## Lists -/

/-- Texts of values follow each other, and behind them comes something else. -/
theorem PrefixFree.flatMap_append (hwrite : PrefixFree write) {values others : List α}
    {rest other : List Char} (hrest : ∀ a more, write a ++ more ≠ rest)
    (hother : ∀ a more, write a ++ more ≠ other)
    (h : values.flatMap write ++ rest = others.flatMap write ++ other) :
    values = others ∧ rest = other := by
  induction values generalizing others with
  | nil =>
    cases others with
    | nil => exact ⟨rfl, h⟩
    | cons b others =>
      rw [List.flatMap_cons, List.append_assoc] at h
      exact absurd h.symm (hrest b _)
  | cons a values ih =>
    cases others with
    | nil =>
      rw [List.flatMap_cons, List.append_assoc] at h
      exact absurd h (hother a _)
    | cons b others =>
      rw [List.flatMap_cons, List.flatMap_cons, List.append_assoc, List.append_assoc] at h
      obtain ⟨rfl, htail⟩ := hwrite h
      obtain ⟨rfl, hend⟩ := ih htail
      exact ⟨rfl, hend⟩

/-- Texts of values follow each other up to a stop with which none of them begins. -/
theorem PrefixFree.closed (hwrite : PrefixFree write) {stop : List Char}
    (hstop : ∀ a more rest, write a ++ more ≠ stop ++ rest) :
    PrefixFree fun values : List α ↦ values.flatMap write ++ stop := by
  intro values others rest other h
  simp only [List.append_assoc] at h
  obtain ⟨hvalues, hrest⟩ := hwrite.flatMap_append (fun a more ↦ hstop a more rest)
    (fun a more ↦ hstop a more other) h
  exact ⟨hvalues, List.append_cancel_left hrest⟩

/-- A text of nothing but values tells all of them, if none of them has an empty text. -/
theorem PrefixFree.flatMap_injective (hwrite : PrefixFree write) (hne : ∀ a, write a ≠ []) :
    Function.Injective fun values : List α ↦ values.flatMap write := by
  intro values others h
  have hmore : ∀ a more, write a ++ more ≠ [] := fun a more hnil ↦
    hne a (List.append_eq_nil_iff.mp hnil).1
  refine (hwrite.flatMap_append hmore hmore ?_).1
  rw [List.append_nil, List.append_nil]
  exact h

end Values

theorem decimalDigits_injective : Function.Injective decimalDigits := by
  intro n m h
  calc
    n = Nat.ofDigitChars 10 (decimalDigits n) 0 := Nat.ofDigitChars_ten_toDigits.symm
    _ = Nat.ofDigitChars 10 (decimalDigits m) 0 := by rw [h]
    _ = m := Nat.ofDigitChars_ten_toDigits

theorem delimited_decimal {mark : List Char}
    (hmark : mark.head?.any (fun c ↦ !c.isDigit) = true) :
    Delimited mark fun n ↦ (decimal n).toList := by
  simp only [decimal, String.toList_ofList]
  refine delimited_of_run Char.isDigit ?_ decimalDigits_injective hmark
  exact fun n c hc ↦ isDigit_of_mem_decimalDigits hc

theorem isSome_hexDigit?_of_hexNumber? {digits : List Char} {n : Nat}
    (hdigits : hexNumber? digits = some n) : ∀ c ∈ digits, (hexDigit? c).isSome = true := by
  obtain ⟨values, hvalues, -⟩ := Option.map_eq_some_iff.mp hdigits
  clear hdigits
  induction digits generalizing values with
  | nil => simp
  | cons c digits ih =>
    rw [List.mapM_cons] at hvalues
    obtain ⟨digit, hdigit, hrest⟩ := Option.bind_eq_some_iff.mp hvalues
    obtain ⟨others, hothers, -⟩ := Option.bind_eq_some_iff.mp hrest
    refine List.forall_mem_cons.mpr ⟨?_, ih others hothers⟩
    rw [hdigit]
    rfl

theorem delimited_paddedUpperHex (width : Nat) {mark : List Char}
    (hmark : mark.head?.any (fun c ↦ !(hexDigit? c).isSome) = true) :
    Delimited mark fun n ↦ (paddedUpperHex width n).toList := by
  have hread : ∀ n, hexNumber? (padDigits width (upperHexDigits n)) = some n := fun n ↦ by
    rw [hexNumber?_padDigits, hexNumber?_upperHexDigits]
  simp only [paddedUpperHex, String.toList_ofList]
  refine delimited_of_run _ (fun n ↦ isSome_hexDigit?_of_hexNumber? (hread n)) ?_ hmark
  intro n m h
  have hsome := congrArg hexNumber? h
  rw [hread, hread] at hsome
  exact Option.some.inj hsome

end InfoScreen.Text
