import DdlCatalog.Text.Lines
import DdlCatalog.Text.Width

/-!
# Grids

A grid shows rows of cells between lines of dashes. A cell shows the lines of its text one below
the other, with a blank on each side; a row is as high as its highest cell and at least one line, a
column as wide as its widest line.
-/

namespace DdlCatalog.Grid

open Text

/-- The lines that a cell shows. -/
abbrev Cell := List (List Char)

/-- The cell of a text. -/
def cell (text : String) : Cell :=
  lines text.toList

def cellWidth (c : Cell) : Nat :=
  (c.map displayWidth).foldl max 0

/-- The widths of the columns: those of the widest cells. -/
def widths (rows : List (List Cell)) : List Nat :=
  rows.foldl (fun widths row =>
    List.zipWithAll (fun w c => max (w.getD 0) ((c.map cellWidth).getD 0)) widths row) []

def height (row : List Cell) : Nat :=
  (row.map List.length).foldl max 1

def separator (widths : List Nat) : List Char :=
  '+' :: widths.flatMap (fun w => List.replicate (w + 2) '-' ++ ['+']) ++ ['\n']

/-- A line of a cell between blanks, filled up to the width of its column. -/
def padded (width : Nat) (line : List Char) : List Char :=
  ' ' :: line ++ List.replicate (width - displayWidth line) ' ' ++ [' ']

/-- One line of a row; a cell without that line shows blanks. -/
def rowLine (widths : List Nat) (row : List Cell) (i : Nat) : List Char :=
  '|' :: (List.zipWith (fun w c => padded w (c.getD i []) ++ ['|']) widths row).flatten ++ ['\n']

/-- The grid of some rows: a line of dashes before the first and after every row. -/
def render (rows : List (List Cell)) : List Char :=
  let widths := widths rows
  separator widths ++ rows.flatMap fun row =>
    (List.range (height row)).flatMap (rowLine widths row) ++ separator widths

end DdlCatalog.Grid
