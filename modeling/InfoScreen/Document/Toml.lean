import InfoScreen.Document.Toml.Members
import InfoScreen.Document.Toml.Scalar
import InfoScreen.Document.Toml.Text

/-!
# Layout files

A layout file is a TOML document: assignments of values to keys, under headers that open tables.
Values are scalars, strings, lists, which may run over several lines, and tables on one line.
Lists and tables inside one another are read to a fixed depth.

The readers of values call one another, so they run on fuel; every second call reads a character,
and `parse?` provides for twice the length of the text.
-/

namespace InfoScreen.Toml

/-- Lists and one-line tables that may stand inside one another, the outermost included. -/
def maxDepth : Nat := 79

mutual

/-- A value, inside which `depth` more levels of lists and tables may be opened. -/
def value? (fuel depth : Nat) (cs : List Char) : Option (Document × List Char) :=
  match fuel with
  | 0 => none
  | fuel + 1 =>
    match cs with
    | '[' :: rest =>
      match depth with
      | 0 => none
      | depth + 1 => do
        let (items, rest) ← items? fuel depth rest
        some (.list items, rest)
    | '\x7b' :: rest =>
      match depth with
      | 0 => none
      | depth + 1 =>
        match skipSpaces rest with
        | '\x7d' :: rest => some (.table [], rest)
        | _ => do
          let (members, rest) ← pairs? fuel depth [] rest
          some (.table (membersToDocuments members), rest)
    | '"' :: _ | '\x27' :: _ => do
      let (text, rest) ← string? cs
      some (.text text, rest)
    | _ => scalar? cs

/-- The items of a list up to its closing bracket; a comma may follow the last item. -/
def items? (fuel depth : Nat) (cs : List Char) : Option (List Document × List Char) :=
  match fuel with
  | 0 => none
  | fuel + 1 =>
    match skipTrivia false cs with
    | ']' :: rest => some ([], rest)
    | cs => do
      let (item, rest) ← value? fuel depth cs
      match skipTrivia false rest with
      | ',' :: rest =>
        let (items, rest) ← items? fuel depth rest
        some (item :: items, rest)
      | ']' :: rest => some ([item], rest)
      | _ => none

/-- The assignments of a one-line table up to its closing brace; no comma follows the last one. -/
def pairs? (fuel depth : Nat) (members : Members) (cs : List Char) :
    Option (Members × List Char) :=
  match fuel with
  | 0 => none
  | fuel + 1 => do
    let (path, rest) ← key? cs
    match rest with
    | '=' :: rest =>
      let (value, rest) ← value? fuel depth (skipSpaces rest)
      let members ← members.assign value path
      match skipSpaces rest with
      | ',' :: rest => pairs? fuel depth members rest
      | '\x7d' :: rest => some (members, rest)
      | _ => none
    | _ => none

end

/-- One header or assignment, up to the end of its line. -/
def statement? (fuel : Nat) (draft : Draft) (cs : List Char) : Option (Draft × List Char) :=
  match cs with
  | '[' :: '[' :: rest => do
    let (path, rest) ← key? rest
    match rest with
    | ']' :: ']' :: rest => some (← draft.openSeries path, ← endLine? rest)
    | _ => none
  | '[' :: rest => do
    let (path, rest) ← key? rest
    match rest with
    | ']' :: rest => some (← draft.openTable path, ← endLine? rest)
    | _ => none
  | _ => do
    let (path, rest) ← key? cs
    match rest with
    | '=' :: rest =>
      let (value, rest) ← value? fuel maxDepth (skipSpaces rest)
      some (← draft.assign path value, ← endLine? rest)
    | _ => none

/-- Headers and assignments to the end of the text, with blank lines and comments between them. -/
def statements? (fuel : Nat) (draft : Draft) (cs : List Char) : Option Draft :=
  match fuel with
  | 0 => none
  | fuel + 1 =>
    match skipTrivia false cs with
    | [] => some draft
    | cs => do
      let (draft, rest) ← statement? (2 * cs.length + 2) draft cs
      statements? fuel draft rest

/-- The table that a layout file stands for.  A byte-order mark at its start does not count. -/
def parse? (text : List Char) : Option Document := do
  let text :=
    match text with
    | '\uFEFF' :: rest => rest
    | _ => text
  let draft ← statements? (text.length + 1) {} text
  let members ← draft.close
  some (.table (membersToDocuments members))

end InfoScreen.Toml
