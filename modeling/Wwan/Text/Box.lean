import Wwan.Text.Columns

/-!
# Boxed tables

A table is drawn with a full frame: a double rule under the header, dotted rules between the rows,
and a dotted line between the columns.  A column is as wide as its widest line, and a cell with line
feeds takes several lines.
-/

namespace Wwan.Text.Box

/-- A table: one header row and any number of rows, all of the same number of cells. -/
structure Table where
  header : List String
  rows : List (List String)

/-- The lines of a cell. -/
def cellLines (cell : String) : List String :=
  cell.splitOn "\n"

/-- The number of columns of the widest line of a cell. -/
def cellColumns (cell : String) : Nat :=
  ((cellLines cell).map columns).foldl max 0

/-- The widths of a table's columns, without the blanks around the cells. -/
def Table.widths (t : Table) : List Nat :=
  t.rows.foldl (fun ws row => List.zipWith max ws (row.map cellColumns)) (t.header.map cellColumns)

/-- `n` copies of a text. -/
def repeatText (n : Nat) (s : String) : String :=
  String.join (List.replicate n s)

/-- A horizontal rule: its left end, its line, its crossing and its right end. -/
def rule (left line cross right : String) (widths : List Nat) : String :=
  left ++ cross.intercalate (widths.map fun w => repeatText (w + 2) line) ++ right

/-- A line of a cell between blanks, filled up to the width of its column. -/
def padLine (width : Nat) (line : String) : String :=
  " " ++ line ++ repeatText (width - columns line) " " ++ " "

/-- The lines of one row: as many as its tallest cell has, with the shorter ones filled up. -/
def rowLines (widths : List Nat) (cells : List String) : List String :=
  let columnsOfLines := List.zipWith (fun w cell => (cellLines cell).map (padLine w)) widths cells
  let height := (columnsOfLines.map List.length).foldl max 0
  (List.range height).map fun i =>
    let parts := List.zipWith
      (fun w lines => (lines[i]?).getD (repeatText (w + 2) " ")) widths columnsOfLines
    "│" ++ "┆".intercalate parts ++ "│"

/-- The lines of a drawn table. -/
def Table.lines (t : Table) : List String :=
  let ws := t.widths
  let between := rule "├" "╌" "┼" "┤" ws
  let body := (t.rows.map (rowLines ws)).intersperse [between]
  [rule "┌" "─" "┬" "┐" ws] ++ rowLines ws t.header ++ [rule "╞" "═" "╪" "╡" ws] ++ body.flatten
    ++ [rule "└" "─" "┴" "┘" ws]

/-- A drawn table, without a line feed at its end. -/
def Table.render (t : Table) : String :=
  "\n".intercalate t.lines

end Wwan.Text.Box
