import Roster.Json.Printer
import Roster.Json.Row

/-!
# Cells

In tables and in CSV a row is cut into cells by the names that occur in any row, in the order in
which they occur first (`headers`). A text stands for itself, no value is `NULL`, and everything
else is written as JSON on one line (`cellText`).
-/

namespace Roster

/-- The names of rows, each at its first place. -/
def headers (rows : List Row) : List String :=
  rows.foldl (fun names row =>
    row.keys.foldl (fun names key => if names.contains key then names else names ++ [key]) names) []

/-- A value in a cell. -/
def cellText : Json → List Char
  | .string s => s.toList
  | .null => ['N', 'U', 'L', 'L']
  | value => Json.compactText value

/-- The cell of a row under a name, which is empty if the row has no such field. -/
def Row.cell (row : Row) (header : String) : List Char :=
  match row.get? header with
  | some value => cellText value
  | none => []

end Roster
