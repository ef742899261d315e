import InfoScreen.Text.Digits

/-!
# Blanks, comments and strings of layout files

Layout files separate tokens by spaces and tabs, end lines by a line feed with or without a
carriage return before it, and write comments from a number sign to the end of the line.  Strings
are basic, with escapes, or literal, and both kinds come on one line or on several.  Controls other
than the tab may stand neither in comments nor in strings.

Every reader takes what it reads off the front of the text and answers it with the rest.
-/

namespace InfoScreen.Toml

open Text

def isSpace (c : Char) : Bool := c = ' ' ∨ c = '\t'

/-- Characters that may stand in comments and literal strings: no controls but the tab. -/
def isPlain (c : Char) : Bool := c = '\t' ∨ (0x20 ≤ c.toNat ∧ c.toNat ≠ 0x7F)

def skipSpaces (cs : List Char) : List Char := cs.dropWhile isSpace

/-- Skips spaces, line ends and comments; `inComment` tells whether the text starts inside a
comment. -/
def skipTrivia (inComment : Bool) : List Char → List Char
  | [] => []
  | '\n' :: rest => skipTrivia false rest
  | '\r' :: '\n' :: rest => skipTrivia false rest
  | c :: rest =>
    if inComment then if isPlain c then skipTrivia true rest else c :: rest
    else if isSpace c then skipTrivia false rest
    else if c = '#' then skipTrivia true rest
    else c :: rest

def atLineEnd : List Char → Bool
  | [] => true
  | '\n' :: _ => true
  | '\r' :: '\n' :: _ => true
  | _ => false

/-- Skips spaces and a comment, which must bring the text to the end of its line. -/
def endLine? (cs : List Char) : Option (List Char) :=
  let cs := skipSpaces cs
  let cs :=
    match cs with
    | '#' :: rest => rest.dropWhile isPlain
    | _ => cs
  if atLineEnd cs then some cs else none

/-- The character with the code point that some digits spell. -/
def codePoint? (digits : List Char) : Option Char := do
  let n := numberOf 16 (← digits.mapM hexDigit?)
  if n.isValidChar then some (Char.ofNat n) else none

def escape? : Char → Option Char
  | 'b' => some '\x08'
  | 't' => some '\t'
  | 'n' => some '\n'
  | 'f' => some '\x0c'
  | 'r' => some '\r'
  | '"' => some '"'
  | '\\' => some '\\'
  | _ => none

/-- The rest of a basic string, behind its opening quote. -/
def basicString? : List Char → Option (List Char × List Char)
  | [] => none
  | '"' :: rest => some ([], rest)
  | '\\' :: 'u' :: a :: b :: c :: d :: rest => do
    let char ← codePoint? [a, b, c, d]
    let (text, rest) ← basicString? rest
    some (char :: text, rest)
  | '\\' :: 'U' :: a :: b :: c :: d :: e :: f :: g :: h :: rest => do
    let char ← codePoint? [a, b, c, d, e, f, g, h]
    let (text, rest) ← basicString? rest
    some (char :: text, rest)
  | '\\' :: c :: rest => do
    let char ← escape? c
    let (text, rest) ← basicString? rest
    some (char :: text, rest)
  | c :: rest =>
    if isPlain c ∧ c ≠ '\\' then do
      let (text, rest) ← basicString? rest
      some (c :: text, rest)
    else none

/-- The rest of a literal string, behind its opening quote. -/
def literalString? : List Char → Option (List Char × List Char)
  | [] => none
  | c :: rest =>
    if c = '\x27' then some ([], rest)
    else if isPlain c then do
      let (text, rest) ← literalString? rest
      some (c :: text, rest)
    else none

/-- One or two quotes directly before the closing three belong to the string. -/
def trailingQuotes (quote : Char) : List Char → List Char × List Char
  | a :: b :: rest =>
    if a = quote ∧ b = quote then ([a, b], rest)
    else if a = quote then ([a], b :: rest)
    else ([], a :: b :: rest)
  | [a] => if a = quote then ([a], []) else ([], [a])
  | [] => ([], [])

/-- Whether a text goes on behind spaces with the end of its line. -/
def lineEndFollows (cs : List Char) : Bool :=
  match skipSpaces cs with
  | [] => false
  | cs => atLineEnd cs

/-- The rest of a basic string on several lines.  Line ends are read as line feeds.  A backslash at
the end of a line removes all spaces and line ends up to the next other character; `eating` tells
whether the text starts among those. -/
def longBasicString? (eating : Bool) : List Char → Option (List Char × List Char)
  | [] => none
  | '"' :: '"' :: '"' :: rest => some (trailingQuotes '"' rest)
  | '\r' :: '\n' :: rest =>
    if eating then longBasicString? true rest
    else do
      let (text, rest) ← longBasicString? false rest
      some ('\n' :: text, rest)
  | '\\' :: 'u' :: a :: b :: c :: d :: rest => do
    let char ← codePoint? [a, b, c, d]
    let (text, rest) ← longBasicString? false rest
    some (char :: text, rest)
  | '\\' :: 'U' :: a :: b :: c :: d :: e :: f :: g :: h :: rest => do
    let char ← codePoint? [a, b, c, d, e, f, g, h]
    let (text, rest) ← longBasicString? false rest
    some (char :: text, rest)
  | '\\' :: c :: rest =>
    if lineEndFollows (c :: rest) then longBasicString? true (c :: rest)
    else do
      let char ← escape? c
      let (text, rest) ← longBasicString? false rest
      some (char :: text, rest)
  | c :: rest =>
    if eating ∧ (isSpace c ∨ c = '\n') then longBasicString? true rest
    else if c = '\n' ∨ (isPlain c ∧ c ≠ '\\') then do
      let (text, rest) ← longBasicString? false rest
      some (c :: text, rest)
    else none

def longLiteralString? : List Char → Option (List Char × List Char)
  | [] => none
  | '\x27' :: '\x27' :: '\x27' :: rest => some (trailingQuotes '\x27' rest)
  | '\r' :: '\n' :: rest => do
    let (text, rest) ← longLiteralString? rest
    some ('\n' :: text, rest)
  | c :: rest =>
    if c = '\n' ∨ isPlain c then do
      let (text, rest) ← longLiteralString? rest
      some (c :: text, rest)
    else none

/-- A line end directly behind the opening quotes does not belong to the string. -/
def dropLineEnd : List Char → List Char
  | '\n' :: rest => rest
  | '\r' :: '\n' :: rest => rest
  | cs => cs

def string? : List Char → Option (String × List Char)
  | '"' :: '"' :: '"' :: rest => do
    let (text, rest) ← longBasicString? false (dropLineEnd rest)
    some (String.ofList text, rest)
  | '\x27' :: '\x27' :: '\x27' :: rest => do
    let (text, rest) ← longLiteralString? (dropLineEnd rest)
    some (String.ofList text, rest)
  | '"' :: rest => do
    let (text, rest) ← basicString? rest
    some (String.ofList text, rest)
  | '\x27' :: rest => do
    let (text, rest) ← literalString? rest
    some (String.ofList text, rest)
  | _ => none

def isBareKeyChar (c : Char) : Bool := c.isAlphanum ∨ c = '_' ∨ c = '-'

/-- One part of a key: bare, or a string on one line. -/
def simpleKey? : List Char → Option (String × List Char)
  | '"' :: rest => do
    let (text, rest) ← basicString? rest
    some (String.ofList text, rest)
  | '\x27' :: rest => do
    let (text, rest) ← literalString? rest
    some (String.ofList text, rest)
  | cs =>
    let key := cs.takeWhile isBareKeyChar
    if key = [] then none else some (String.ofList key, cs.dropWhile isBareKeyChar)

/-- Parts of keys that may follow one another; deeper keys are refused. -/
def maxKeyParts : Nat := 79

/-- A key of at most `parts` parts between points, with spaces around each part. -/
def dottedKey? (parts : Nat) (cs : List Char) : Option (List String × List Char) :=
  match parts with
  | 0 => none
  | parts + 1 => do
    let (part, rest) ← simpleKey? (skipSpaces cs)
    match skipSpaces rest with
    | '.' :: rest => do
      let (more, rest) ← dottedKey? parts rest
      some (part :: more, rest)
    | rest => some ([part], rest)

def key? (cs : List Char) : Option (List String × List Char) := dottedKey? maxKeyParts cs

end InfoScreen.Toml
