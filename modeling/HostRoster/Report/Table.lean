import HostRoster.Text.Blank
import HostRoster.Text.Width

/-!
# Tables

Rows of cells in columns as wide as their widest line, with a blank on either side
of every cell and a ruled line around every row.
-/
namespace HostRoster.Table

def cellLines (cell : String) : List (List Char) := Text.splitLines cell.toList

def cellWidth (cell : String) : Nat := ((cellLines cell).map Text.lineWidth).foldl max 0

def columnWidths (rows : List (List String)) : List Nat :=
  rows.foldl (fun widths row =>
    (List.range (max widths.length row.length)).map fun i =>
      max (widths.getD i 0) (cellWidth (row.getD i ""))) []

/-- A line filled up with blanks to a width. -/
def fill (width : Nat) (line : List Char) : List Char :=
  line ++ List.replicate (width - Text.lineWidth line) ' '

/-- The ruled line between rows. -/
def rule (widths : List Nat) : List Char :=
  '+' :: widths.flatMap fun w => List.replicate (w + 2) '-' ++ ['+']

/-- The lines of a row; a cell with fewer lines than another ends in blank ones. -/
def rowLines (widths : List Nat) (row : List String) : List (List Char) :=
  let cells := row.map cellLines
  let height := (cells.map List.length).foldl max 1
  (List.range height).map fun i =>
    '|' :: (cells.zip widths).flatMap fun c => ' ' :: fill c.2 (c.1.getD i []) ++ [' ', '|']

/-- The text of a table, header first, without a final line feed. -/
def render (rows : List (List String)) : String :=
  let widths := columnWidths rows
  let lines := rule widths :: rows.flatMap fun row => rowLines widths row ++ [rule widths]
  .ofList ((lines.intersperse ['\n']).flatten)

end HostRoster.Table
