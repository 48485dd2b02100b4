/-!
# Lines

A line ends at a line feed, or at a carriage return and a line feed.  No other
character ends a line.  A line feed at the very end of a text starts no further
line, and a carriage return that no line feed follows belongs to its line.
-/

namespace MessageExchange.Text

/-- A line that a line feed ended, without the carriage return that came before the line feed. -/
def dropReturn (line : List Char) : List Char :=
  if line.getLast? = some '\r' then line.dropLast else line

/-- The lines among the pieces between the line feeds of a text.  Every piece but the last was
ended by a line feed; the last piece is a line only if it holds something. -/
def linesOfPieces : List (List Char) → List (List Char)
  | [] => []
  | [last] => if last.isEmpty then [] else [last]
  | piece :: next :: rest => dropReturn piece :: linesOfPieces (next :: rest)

/-- The lines of a text, without the characters that end them. -/
def lines (text : List Char) : List (List Char) :=
  linesOfPieces (text.splitOnP fun c => c = '\n')

@[simp] theorem dropReturn_nil : dropReturn [] = [] := rfl

@[simp] theorem lines_nil : lines [] = [] := rfl

end MessageExchange.Text
