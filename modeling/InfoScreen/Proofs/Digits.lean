import InfoScreen.Text.Digits
import Mathlib.Algebra.Group.Nat.Defs

/-!
# Reading digits back

The digits that are written for a number spell that number, decimal ones as well as hexadecimal
ones in upper case and padded with zeros.  Of hexadecimal digits there are never more than the
width asks for, unless the number is too large for the width.
-/

namespace InfoScreen.Text

def hexNumber? (digits : List Char) : Option Nat := (digits.mapM hexDigit?).map (numberOf 16)

theorem numberOf_append_singleton (radix : Nat) (digits : List Nat) (digit : Nat) :
    numberOf radix (digits ++ [digit]) = numberOf radix digits * radix + digit := by
  rw [numberOf, List.foldl_append]
  rfl

theorem numberOf_zero_cons (radix : Nat) (digits : List Nat) :
    numberOf radix (0 :: digits) = numberOf radix digits := by
  rw [numberOf, List.foldl_cons, Nat.zero_mul]
  rfl

section Reading

variable {digits : List Char} {c : Char} {n d : Nat}

theorem map_numberOf_append_singleton {read : Char → Option Nat} {radix : Nat}
    (hdigits : (digits.mapM read).map (numberOf radix) = some n) (hc : read c = some d) :
    ((digits ++ [c]).mapM read).map (numberOf radix) = some (n * radix + d) := by
  obtain ⟨values, hvalues, rfl⟩ := Option.map_eq_some_iff.mp hdigits
  simp [List.mapM_append, hvalues, hc, numberOf_append_singleton]

theorem hexNumber?_zero_cons (digits : List Char) :
    hexNumber? ('0' :: digits) = hexNumber? digits := by
  have hzero : hexDigit? '0' = some 0 := by decide
  rw [hexNumber?, List.mapM_cons, hzero, Option.bind_eq_bind, Option.bind_some]
  cases hvalues : digits.mapM hexDigit? with
  | none => simp [hexNumber?, hvalues]
  | some values => simp [hexNumber?, hvalues, numberOf_zero_cons]

end Reading

/-- In any radix the digits of a number spell it, if every digit is read as it is written. -/
theorem map_numberOf_toDigits {radix : Nat} (hradix : 1 < radix) {read : Char → Option Nat}
    {write : Char → Char} (hread : ∀ d < radix, read (write d.digitChar) = some d) (n : Nat) :
    (((Nat.toDigits radix n).map write).mapM read).map (numberOf radix) = some n := by
  induction n using Nat.strongRecOn with
  | ind n ih =>
    rw [Nat.toDigits_eq_if hradix]
    split
    next hlt => simp [hread n hlt, numberOf]
    next hge =>
      have hfront := ih (n / radix) (Nat.div_lt_self (by omega) hradix)
      have hlast := hread (n % radix) (Nat.mod_lt n (by omega))
      rw [List.map_append, List.map_singleton, map_numberOf_append_singleton hfront hlast,
        Nat.div_add_mod']

theorem hexNumber?_upperHexDigits (n : Nat) : hexNumber? (upperHexDigits n) = some n :=
  map_numberOf_toDigits (by decide) (by decide) n

theorem isDigit_of_mem_decimalDigits {n : Nat} {c : Char} (hc : c ∈ decimalDigits n) :
    c.isDigit = true :=
  Nat.isDigit_of_mem_toDigits (by decide) (by decide) hc

theorem notMem_decimalDigits {c : Char} (hc : c.isDigit = false) (n : Nat) :
    c ∉ decimalDigits n := by
  intro hmem
  rw [isDigit_of_mem_decimalDigits hmem] at hc
  cases hc

theorem readDecimal?_decimalDigits (n : Nat) : readDecimal? (decimalDigits n) = some n := by
  have hne : (decimalDigits n).isEmpty = false := by
    rw [List.isEmpty_eq_false_iff]
    exact Nat.toDigits_ne_nil
  have hnumber : (((decimalDigits n).map id).mapM decimalDigit?).map (numberOf 10) = some n :=
    map_numberOf_toDigits (by decide) (by decide) n
  rw [List.map_id] at hnumber
  rw [readDecimal?, hne]
  exact hnumber

theorem hexNumber?_padDigits (width : Nat) (digits : List Char) :
    hexNumber? (padDigits width digits) = hexNumber? digits := by
  rw [padDigits]
  induction width - digits.length with
  | zero => rfl
  | succ zeros ih => rw [List.replicate_succ, List.cons_append, hexNumber?_zero_cons, ih]

/-- Padded to two places, a byte is written in both its digits. -/
theorem padDigits_byte {write : Char → Char} (hzero : write '0' = '0') (byte : UInt8) :
    padDigits 2 ((hexDigits byte.toNat).map write) =
      [write (byte.toNat / 16).digitChar, write (byte.toNat % 16).digitChar] := by
  have hbyte := byte.toNat_lt
  rw [padDigits, hexDigits, Nat.toDigits_eq_if (by decide)]
  split
  -- below sixteen the high digit is the zero of the padding
  next hlt =>
    rw [Nat.div_eq_of_lt hlt, Nat.mod_eq_of_lt hlt, List.map_singleton]
    exact congrArg (· :: _) hzero.symm
  next hge =>
    rw [Nat.toDigits_of_lt_base (show byte.toNat / 16 < 16 by omega)]
    rfl

/-- A number below a power of sixteen has at most as many digits as the power says. -/
theorem length_upperHexDigits_le_iff {width n : Nat} (hwidth : 0 < width) :
    (upperHexDigits n).length ≤ width ↔ n < 16 ^ width := by
  rw [upperHexDigits, List.length_map]
  exact Nat.length_toDigits_le_iff (by decide) hwidth

theorem length_padDigits (width : Nat) (digits : List Char) :
    (padDigits width digits).length = max width digits.length := by
  rw [padDigits, List.length_append, List.length_replicate]
  omega

/-- Padding brings a number that is not too large to exactly the width. -/
theorem length_padDigits_upperHexDigits {width n : Nat} (hwidth : 0 < width)
    (hn : n < 16 ^ width) : (padDigits width (upperHexDigits n)).length = width := by
  rw [length_padDigits]
  exact Nat.max_eq_left ((length_upperHexDigits_le_iff hwidth).mpr hn)

end InfoScreen.Text
