import InfoScreen.Path
import InfoScreen.Text.Digits

/-!
# Files of banks

A single bank is written to the given path.  Several banks go beside it, each with its number
between the stem and the extension of the file name.
-/

namespace InfoScreen.Table

def bankName (stem : List Char) (extension : Option (List Char)) (bank : Nat) : List Char :=
  let numbered := stem ++ "_bank".toList ++ Text.decimalDigits bank
  match extension with
  | some ext => numbered ++ '.' :: ext
  | none => numbered

def bankPath (path : String) (bank bankCount : Nat) : String :=
  if bankCount ≤ 1 then path
  else
    let name := ((Path.ofText path.toList).fileName?).getD []
    let (stem, extension) := Path.stemAndExtension name
    String.ofList (Path.withFileName path.toList (bankName stem extension bank))

end InfoScreen.Table
