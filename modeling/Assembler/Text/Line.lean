/-!
# Lines of a text

A line ends at a line feed, and one carriage return right before that line feed belongs to the
line end.  A carriage return anywhere else is part of its line.  A line feed at the very end of
the text begins no further line, so the empty text has no line at all.

## Main definitions

* `lines` : the lines of a text, in order.
* `ofLines` : lines written back, each ended by a line feed.
-/

namespace Assembler.Text

/-- A line without the carriage return that precedes its line feed. -/
def dropReturn (line : List Char) : List Char :=
  if line.getLast? = some '\r' then line.dropLast else line

/-- The lines among the pieces between line feeds: only the last piece lacks a line feed, and it
is a line when something stands in it. -/
def linesOfPieces : List (List Char) → List (List Char)
  | [] => []
  | [unended] => if unended.isEmpty then [] else [unended]
  | line :: rest => dropReturn line :: linesOfPieces rest

/-- The lines of a text, in order. -/
def lines (text : List Char) : List (List Char) :=
  linesOfPieces (text.splitOn '\n')

/-- Lines written one after the other, each ended by a line feed. -/
def ofLines (rows : List String) : String :=
  String.join (rows.map (· ++ "\n"))

end Assembler.Text
