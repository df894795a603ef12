/-!
# Tables

Rows of cells, laid out in columns. A column is as wide as its widest cell, counted in characters;
every cell is filled up with spaces to the width of its column, the last cell of a row too. Rows may
be of different lengths.

* `pad` — a text filled up to a width;
* `columnWidths` — the widths of the columns, found cell by cell;
* `table` — the lines of the rows, each with its cells a fixed gap apart.
-/

namespace PocketShell.Text

/-- `count` spaces. -/
def spaces (count : Nat) : String :=
  String.ofList (List.replicate count ' ')

/-- **Padding.** The text filled up with spaces to a number of characters; a longer text stays as
it is. -/
def pad (width : Nat) (text : String) : String :=
  text ++ spaces (width - text.length)

/-! ### Widths -/

/-- The widths of the columns with one more cell in a column. A cell behind all columns so far opens
the next one. -/
def widenColumn (widths : List Nat) (column : Nat) (cell : String) : List Nat :=
  match widths[column]? with
  | some width => widths.set column (max width cell.length)
  | none => widths ++ [cell.length]

/-- The widths of the columns with one more row. -/
def widen (widths : List Nat) (row : List String) : List Nat :=
  row.zipIdx.foldl (fun widths entry => widenColumn widths entry.2 entry.1) widths

/-- **The widths of the columns,** found row by row. -/
def columnWidths (rows : List (List String)) : List Nat :=
  rows.foldl widen []

/-! ### Lines -/

/-- The line of one row, for columns of some widths. -/
def tableLine (widths : List Nat) (gap : Nat) (row : List String) : String :=
  String.intercalate (spaces gap) (List.zipWith (fun cell width => pad width cell) row widths)

/-- **Tables.** One line per row, with the cells of a column starting at the same place. -/
def table (rows : List (List String)) (gap : Nat) : String :=
  String.intercalate "\n" (rows.map (tableLine (columnWidths rows) gap))

end PocketShell.Text
