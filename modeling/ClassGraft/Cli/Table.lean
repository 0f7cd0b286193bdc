/-
Tables in plain text.

A column is as wide as its widest cell, its title included, measured in columns of a terminal.
Two spaces stand between columns, and no line ends in blanks.  A cell may have several lines; the
row is then as high as its highest cell.  What is wider than a column can be is broken into
lines.
-/
import ClassGraft.Text.Blank
import ClassGraft.Text.Wrapped

namespace ClassGraft.Cli

/-- The side of a column that its cells stand at. -/
inductive Alignment where
  | left
  | right
  deriving DecidableEq, Repr

/-- A text with a number of blanks; the text stands at the given side. -/
def Alignment.pad (alignment : Alignment) (blanks : Nat) (text : List Char) : List Char :=
  let gap := List.replicate blanks ' '
  match alignment with
  | .left => text ++ gap
  | .right => gap ++ text

/-- A text filled up with blanks to a number of characters. -/
def Alignment.fill (alignment : Alignment) (width : Nat) (text : List Char) : List Char :=
  alignment.pad (width - text.length) text

structure Column where
  title : String
  alignment : Alignment := .left
  deriving DecidableEq, Repr

/-- A table whose rows have a cell for every column. -/
structure Table where
  columns : List Column
  rows : List (List String)
  deriving DecidableEq, Repr

namespace Table

/-- The lines of a cell. -/
abbrev Cell := List (List Char)

def cellOf (text : String) : Cell := text.toList.splitOn '\n'

/-- The greatest width of a column. -/
def widest : Nat := 65535

/-- The width of a cell: that of its widest line. -/
def cellWidth (cell : Cell) : Nat := (cell.map Text.columns).foldl max 0

/-- The lines of a cell in a column of a width. -/
def broken (width : Nat) (cell : Cell) : Cell :=
  cell.flatMap fun line => if width < Text.columns line then Text.wrapped width line else [line]

/-- The cells of a table with the titles on top. -/
def grid (t : Table) : List (List Cell) :=
  (t.columns.map Column.title :: t.rows).map fun row => row.map cellOf

/-- Widths that hold both a row and what the given widths hold. -/
def widen (widths : List Nat) (row : List Cell) : List Nat :=
  List.zipWith (fun width cell => max width (min widest (cellWidth cell))) widths row

/-- The alignments and the widths of the columns. -/
def measures (t : Table) : List (Alignment × Nat) :=
  (t.columns.map Column.alignment).zip (t.grid.foldl widen (t.columns.map fun _ => 0))

/-- A text without the blanks at its end. -/
def trimEnd (text : List Char) : List Char := (text.reverse.dropWhile Text.isBlank).reverse

/-- One line of a row. -/
def rowLine (measures : List (Alignment × Nat)) (row : List Cell) (line : Nat) : List Char :=
  let fill := fun (measure : Alignment × Nat) (cell : Cell) =>
    let text := cell[line]?.getD []
    measure.1.pad (measure.2 - Text.columns text) text
  trimEnd ([' ', ' '].intercalate (List.zipWith fill measures row))

/-- The lines of a row: as many as its highest cell has. -/
def rowLines (measures : List (Alignment × Nat)) (row : List Cell) : List (List Char) :=
  let cells := List.zipWith (fun measure cell => broken measure.2 cell) measures row
  (List.range ((cells.map List.length).foldl max 0)).map (rowLine measures cells)

/-- The lines of a table, each after an indent. -/
def lines (t : Table) (indent : String := "") : List String :=
  (t.grid.flatMap (rowLines t.measures)).map fun line => indent ++ String.ofList line

end Table

end ClassGraft.Cli
