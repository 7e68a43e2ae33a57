import Roster.Output.Cell
import Roster.Output.Style

/-!
# Tables

A table has a line for the names and a line for each row, with ruled lines above, between and
below. Every column is as wide as its widest cell, and four characters at least; cells are filled
up by blanks on the right.
-/

namespace Roster

/-- The least width of a column. -/
def leastWidth : Nat := 4

/-- A text filled up by blanks to a width in characters. -/
def pad (width : Nat) (text : List Char) : List Char :=
  text ++ List.replicate (width - text.length) ' '

theorem length_pad (width : Nat) (text : List Char) :
    (pad width text).length = max text.length width := by
  simp only [pad, List.length_append, List.length_replicate]
  omega

/-- The width of the column of a name. -/
def columnWidth (rows : List Row) (header : String) : Nat :=
  max ((rows.map fun row => (row.cell header).length).foldl max header.length) leastWidth

/-- A ruled line over columns of given widths, with a character at their edges. -/
def ruledLine (edge : Char) (widths : List Nat) : List Char :=
  edge :: (widths.flatMap fun width => List.replicate (width + 2) '-' ++ [edge]) ++ ['\n']

/-- A line of cells. -/
def cellLine (cells : List (List Char)) : List Char :=
  '|' :: (cells.flatMap fun cell => ' ' :: cell ++ [' ', '|']) ++ ['\n']

/-- The style in which a value is shown. -/
def valueStyle : Json → Style
  | .string _ => .plain
  | .number _ => .blue
  | .bool true => .green
  | .bool false => .red
  | .object _ => .magenta
  | .array _ => .magenta
  | .null => .dimmed

/-- The style of a row's cell under a name. -/
def Row.cellStyle (row : Row) (header : String) : Style :=
  match row.get? header with
  | some value => valueStyle value
  | none => .plain

/-- The table of rows. -/
def tableText (color : Bool) (rows : List Row) : List Char :=
  if rows.isEmpty then Style.dimmed.apply color "No results found.".toList
  else
    let columns := (headers rows).map fun header => (header, columnWidth rows header)
    let widths := columns.map Prod.snd
    let headerLine :=
      cellLine (columns.map fun (header, width) =>
        Style.boldCyan.apply color (pad width header.toList))
    let rowLine (row : Row) :=
      cellLine (columns.map fun (header, width) =>
        (row.cellStyle header).apply color (pad width (row.cell header)))
    ruledLine '+' widths ++ headerLine ++ ruledLine '|' widths ++ rows.flatMap rowLine
      ++ ruledLine '+' widths

end Roster
