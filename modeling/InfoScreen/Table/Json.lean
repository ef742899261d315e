import InfoScreen.Table

/-!
# Tables in JSON

A bank is one object on indented lines: the table's name, the bank number and the list of rows.
Strings escape the quote, the backslash and the controls below the space, the common ones by a
letter and the others by code point.
-/

namespace InfoScreen.Table.Json

open Text

/-- One character of a string. -/
def escaped (c : Char) : List Char :=
  if c = '"' ∨ c = '\\' then ['\\', c]
  else if c = '\x08' then ['\\', 'b']
  else if c = '\t' then ['\\', 't']
  else if c = '\n' then ['\\', 'n']
  else if c = '\x0c' then ['\\', 'f']
  else if c = '\r' then ['\\', 'r']
  else if c.toNat < 0x20 then ['\\', 'u'] ++ padDigits 4 (hexDigits c.toNat)
  else [c]

def string (s : String) : String :=
  String.ofList (['"'] ++ s.toList.flatMap escaped ++ ['"'])

def boolean (b : Bool) : String := if b then "true" else "false"

def row (entry : Entry) : String :=
  "    \x7b\n" ++
  "      \"index\": " ++ decimal entry.index ++ ",\n" ++
  "      \"address\": " ++ decimal entry.address ++ ",\n" ++
  "      \"value_type\": \"" ++ entry.valueType.name ++ "\",\n" ++
  "      \"value\": " ++ decimal entry.value.toNat ++ ",\n" ++
  "      \"secondary\": " ++ decimal entry.secondary.toNat ++ ",\n" ++
  "      \"display_write\": " ++ boolean entry.displayWrite ++ ",\n" ++
  "      \"memory_read\": " ++ boolean entry.memoryRead ++ "\n" ++
  "    \x7d"

/-- The list of rows; an empty list stays on its line. -/
def rows : List Entry → String
  | [] => "[]"
  | entries => "[\n" ++ String.intercalate ",\n" (entries.map row) ++ "\n  ]"

def render (tableName : String) (bank : Bank) : String :=
  "\x7b\n  \"name\": " ++ string tableName ++ ",\n  \"bank\": " ++ decimal bank.number ++
    ",\n  \"rows\": " ++ rows bank.entries.toList ++ "\n\x7d\n"

end InfoScreen.Table.Json
