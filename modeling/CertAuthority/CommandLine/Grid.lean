import CertAuthority.Text.Width

/-!
# Grids of text

A grid has a row of titles and rows of cells below it.  Each column is as wide as its widest
line, with a blank on either side; a cell of several lines makes its row as high.
-/

namespace CertAuthority

structure Grid where
  titles : List String
  rows : List (List String)
  deriving Repr, DecidableEq

namespace Grid

/-- The lines of a cell. -/
def cellLines (cell : String) : List String :=
  cell.splitOn "\n"

/-- The columns that a cell takes. -/
def cellWidth (cell : String) : Nat :=
  ((cellLines cell).map Text.width).foldl max 0

/-- The widths of the columns that hold for all of some rows. -/
def widths : List (List String) → List Nat
  | [] => []
  | row :: rest =>
    let below := widths rest
    (List.range (max row.length below.length)).map fun i =>
      max (cellWidth (row.getD i "")) (below.getD i 0)

/-- The signs that draw a line across: at the left, along a column, between columns, at the
right. -/
structure Rule where
  left : Char
  along : Char
  between : Char
  right : Char

def top : Rule := ⟨'┌', '─', '┬', '┐'⟩
def underTitles : Rule := ⟨'╞', '═', '╪', '╡'⟩
def betweenRows : Rule := ⟨'├', '╌', '┼', '┤'⟩
def bottom : Rule := ⟨'└', '─', '┴', '┘'⟩

def Rule.draw (r : Rule) (widths : List Nat) : String :=
  let spans := widths.map fun w => String.ofList (List.replicate (w + 2) r.along)
  r.left.toString ++ r.between.toString.intercalate spans ++ r.right.toString

/-- A line of a cell, filled up with blanks. -/
def padded (w : Nat) (line : String) : String :=
  line ++ String.ofList (List.replicate (w - Text.width line) ' ')

/-- One line across a row. -/
def drawLine (widths : List Nat) (cells : List (List String)) (i : Nat) : String :=
  let parts := (widths.zip cells).map fun (w, lines) => " " ++ padded w (lines.getD i "") ++ " "
  "│" ++ "┆".intercalate parts ++ "│"

/-- The lines of a row. -/
def drawRow (widths : List Nat) (row : List String) : List String :=
  let cells := row.map cellLines
  let height := (cells.map List.length).foldl max 1
  (List.range height).map (drawLine widths cells)

/-- The lines of a grid. -/
def lines (g : Grid) : List String :=
  let ws := widths (g.titles :: g.rows)
  let bodies := g.rows.map (drawRow ws)
  [top.draw ws] ++ drawRow ws g.titles ++ [underTitles.draw ws] ++
    [betweenRows.draw ws].intercalate bodies ++ [bottom.draw ws]

end Grid

end CertAuthority
