/-!
# Lines

A line ends at a line feed; a carriage return just before the line feed belongs to the line's end.
A text that ends with a line feed has no further, empty line after it.
-/

namespace DdlCatalog.Text

/-- The lines of a text that continues a line of which `line` has been read, last character
first. -/
def linesAfter (line : List Char) : List Char → List (List Char)
  | [] => if line.isEmpty then [] else [line.reverse]
  | '\n' :: text =>
    (if line.head? = some '\r' then line.tail.reverse else line.reverse) :: linesAfter [] text
  | c :: text => linesAfter (c :: line) text

def lines (text : List Char) : List (List Char) :=
  linesAfter [] text

/-- The first line of a text; a text without lines has an empty one. -/
def firstLine (text : List Char) : List Char :=
  (lines text).head?.getD []

end DdlCatalog.Text
