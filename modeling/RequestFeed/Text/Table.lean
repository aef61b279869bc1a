import RequestFeed.Text.LineBreak
/-!
# Tables

Tables drawn with lines: a frame, a double line below the heading, and dashed lines between the
rows. Columns are as wide as their widest cell; a cell may have several lines. Every character
counts as wide as any other.

*Limit.* Nothing is wider than `Table.maxWidth`. Lines of a cell that are wider are broken, and a
column whose cells are that wide has no room for its margins in the rules across the table.
-/

namespace RequestFeed
namespace Table

def maxWidth : Nat := 65535

def cellLines (cell : String) : List String := cell.splitOn "\n"

/-- The width that a cell asks for. -/
def cellWidth (cell : String) : Nat :=
  Nat.min maxWidth (((cellLines cell).map String.length).foldl max 0)

/-- The widths of the columns. -/
def widths (header : List String) (rows : List (List String)) : List Nat :=
  rows.foldl (fun acc row => acc.zipWith max (row.map cellWidth)) (header.map cellWidth)

/-- The width of a column with a space on each side. -/
def outerWidth (width : Nat) : Nat := Nat.min maxWidth (width + 2)

def blank (width : Nat) : String := String.ofList (List.replicate width ' ')

/-- A line across the table: its left end, what it is made of, its crossings and its right end. -/
def rule (left line crossing right : Char) (ws : List Nat) : String :=
  String.ofList [left] ++
    (String.ofList [crossing]).intercalate
      (ws.map fun w => String.ofList (List.replicate (outerWidth w) line)) ++
    String.ofList [right]

/-- A line of a cell, filled up with spaces and with one on each side. -/
def padded (width : Nat) (line : String) : String :=
  " " ++ line ++ blank (width - line.length) ++ " "

/-- The lines of a cell in a column, broken where they are too wide. -/
def fitted (width : Nat) (cell : String) : List String :=
  ((cellLines cell).flatMap (LineBreak.lines width)).map (padded width)

/-- One line of a row. A cell that has no more lines is blank. -/
def rowLine (ws : List Nat) (cells : List (List String)) : String :=
  "│" ++ "┆".intercalate ((ws.zip cells).map fun (w, lines) =>
    lines.headD (blank (outerWidth w))) ++ "│"

/-- The first lines of a row, as many as asked for. -/
def stack (ws : List Nat) : Nat → List (List String) → List String
  | 0, _ => []
  | height + 1, cells => rowLine ws cells :: stack ws height (cells.map List.tail)

/-- A row, which is as high as its highest cell. -/
def rowLines (ws : List Nat) (row : List String) : List String :=
  let cells := (ws.zip row).map fun (w, cell) => fitted w cell
  stack ws ((cells.map List.length).foldl max 0) cells

/-- The rows with dashed lines between them. -/
def bodyLines (ws : List Nat) : List (List String) → List String
  | [] => []
  | [row] => rowLines ws row
  | row :: rest => rowLines ws row ++ rule '├' '╌' '┼' '┤' ws :: bodyLines ws rest

/-- The table as text, without a line end after the last line. -/
def render (header : List String) (rows : List (List String)) : String :=
  let ws := widths header rows
  "\n".intercalate
    ([rule '┌' '─' '┬' '┐' ws] ++ rowLines ws header ++ [rule '╞' '═' '╪' '╡' ws] ++
      bodyLines ws rows ++ [rule '└' '─' '┴' '┘' ws])

end Table
end RequestFeed
