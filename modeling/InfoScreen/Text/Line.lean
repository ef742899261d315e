/-!
# Lines

A line feed ends a line.  One carriage return directly before the line feed belongs to the line's
end and not to the line.  Text after the last line feed is a line of its own if there is any, and
keeps its carriage returns.
-/

namespace InfoScreen.Text

/-- The lines of a text, without their ends. -/
def lines : List Char → List (List Char)
  | [] => []
  | '\n' :: rest => [] :: lines rest
  | '\r' :: '\n' :: rest => [] :: lines rest
  | c :: rest =>
    match lines rest with
    | [] => [[c]]
    | line :: more => (c :: line) :: more

end InfoScreen.Text
