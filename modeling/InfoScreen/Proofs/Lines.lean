import InfoScreen.Proofs.Digits
import InfoScreen.Text.Line

/-!
# Lines of a text

A line without a line end of its own is told from what follows by the line feed behind it, so lines
that are put one after the other can be read back.
-/

namespace InfoScreen

namespace Text

def Unbroken (line : List Char) : Prop := '\n' ∉ line ∧ '\r' ∉ line

instance (line : List Char) : Decidable (Unbroken line) := instDecidableAnd

@[simp] theorem unbroken_append {line rest : List Char} :
    Unbroken (line ++ rest) ↔ Unbroken line ∧ Unbroken rest := by
  simp only [Unbroken, List.mem_append, not_or]
  exact and_and_and_comm

/-- An unbroken line is told by the line feed behind it. -/
theorem lines_append {line rest : List Char} (h : Unbroken line) :
    lines (line ++ '\n' :: rest) = line :: lines rest := by
  induction line with
  | nil => rfl
  | cons c line ih =>
    obtain ⟨hfeed, hreturn⟩ := h
    rw [List.mem_cons, not_or] at hfeed hreturn
    rw [List.cons_append, lines, ih ⟨hfeed.2, hreturn.2⟩]
    · exact Ne.symm hfeed.1
    · exact fun _ hc ↦ absurd hc.symm hreturn.1

/-- Unbroken lines that are ended by line feeds are read as they are. -/
theorem lines_flatMap {list : List (List Char)} (h : ∀ line ∈ list, Unbroken line) :
    lines (list.flatMap (· ++ ['\n'])) = list := by
  induction list with
  | nil => rfl
  | cons line rest ih =>
    obtain ⟨hline, hrest⟩ := List.forall_mem_cons.mp h
    rw [List.flatMap_cons, List.append_assoc, List.singleton_append, lines_append hline, ih hrest]

theorem unbroken_decimalDigits (n : Nat) : Unbroken (decimalDigits n) :=
  ⟨notMem_decimalDigits (by decide) n, notMem_decimalDigits (by decide) n⟩

theorem toList_decimal (n : Nat) : (decimal n).toList = decimalDigits n := String.toList_ofList

end Text

end InfoScreen
