import InfoScreen.Text.Digits
import InfoScreen.Text.Unprintable

/-!
# Quoted text

Messages quote texts and single characters.  The quote itself, the backslash and the common
controls have short escapes, characters that would not show by themselves are written by code
point, and everything else stands for itself.
-/

namespace InfoScreen.Text

/-- A character by its code point in hexadecimal, in braces. -/
def codePointEscape (c : Char) : List Char :=
  ['\\', 'u', '\x7b'] ++ hexDigits c.toNat ++ ['\x7d']

/-- One character inside a pair of `quote`s. -/
def escaped (quote c : Char) : List Char :=
  if c = '\x00' then ['\\', '0']
  else if c = '\t' then ['\\', 't']
  else if c = '\r' then ['\\', 'r']
  else if c = '\n' then ['\\', 'n']
  else if c = '\\' ∨ c = quote then ['\\', c]
  else if isUnprintable c then codePointEscape c
  else [c]

def quoted (s : String) : String :=
  String.ofList (['"'] ++ s.toList.flatMap (escaped '"') ++ ['"'])

def quotedChar (c : Char) : String :=
  String.ofList (['\x27'] ++ escaped '\x27' c ++ ['\x27'])

end InfoScreen.Text
