import Roster.Output.Table
import Roster.Output.Csv
import Roster.Query.Answer

/-!
# Output formats

Answers and loose rows as a table, as JSON over several lines or as CSV. A table of an answer says
below how many of how many records it shows; a single loose row is written as an object and not as
an array.
-/

namespace Roster

/-- A format of output. -/
inductive OutputFormat
  | table
  | json
  | csv
  deriving Repr, DecidableEq

/-- The formats by their names. -/
def OutputFormat.byName : List (String × OutputFormat) :=
  [("table", .table), ("json", .json), ("csv", .csv)]

/-- A number in a style. -/
def styledNumber (color : Bool) (style : Style) (n : Nat) : List Char :=
  style.apply color (Number.naturalText n)

/-- The line below the table of an answer. -/
def footer (color : Bool) (a : Answer) : List Char :=
  let page :=
    match a.pagination with
    | some p =>
      " (page ".toList ++ styledNumber color .cyan p.page.toNat ++ " of ".toList
        ++ styledNumber color .cyan p.pages ++ [')']
    | none => []
  '\n' :: styledNumber color .boldGreen a.data.length ++ " of ".toList
    ++ styledNumber color .boldGreen a.total
    ++ (if a.total == 1 then " record".toList else " records".toList) ++ page ++ ['\n']

/-- Rows in a format. -/
def OutputFormat.rows (format : OutputFormat) (color : Bool) (rows : List Row) : String :=
  match format with
  | .table => String.ofList (tableText color rows)
  | .csv => String.ofList (Csv.text (Csv.ofRows rows))
  | .json =>
    match rows with
    | [row] => row.json.pretty
    | rows => (Json.array (rows.map Row.json)).pretty

/-- An answer in a format. -/
def OutputFormat.answer (format : OutputFormat) (color : Bool) (a : Answer) : String :=
  match format with
  | .table =>
    String.ofList (tableText color a.data ++ if a.data.isEmpty then [] else footer color a)
  | .csv => String.ofList (Csv.text (Csv.ofRows a.data))
  | .json => a.json.pretty

end Roster
