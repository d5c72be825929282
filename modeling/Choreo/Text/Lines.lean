/-!
# Lines of a text

A line ends at a line feed, and a carriage return just before the line feed belongs to the ending.
A carriage return elsewhere is an ordinary character. Text after the last line feed is a last line
unless it is empty.
-/

namespace Choreo.Text

/-- A line without the carriage return that belongs to its ending. -/
def dropReturn (line : List Char) : List Char :=
  match line.reverse with
  | '\r' :: rest => rest.reverse
  | _ => line

/-- The lines of `cs`, `line` being the part of the current one that was read, reversed. -/
def splitLines (line : List Char) : List Char → List (List Char)
  | [] => if line.isEmpty then [] else [line.reverse]
  | '\n' :: cs => dropReturn line.reverse :: splitLines [] cs
  | c :: cs => splitLines (c :: line) cs

def lines (text : String) : List String := (splitLines [] text.toList).map String.ofList

end Choreo.Text
