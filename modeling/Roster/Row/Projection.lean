import Roster.Record.Json
import Roster.Column.Value
import Roster.Query.Request

/-!
# Rows of records

`Record.project` makes the row of a record in one of four ways.

* All columns, nested: the record as it is.
* All columns, flat: every value that the record has, under its flat key, empty texts included.
* Chosen columns, flat: the values that are not the empty text, in the order of the choice.
* Chosen columns, nested: values inside their objects. An object stands where one of its columns is
  named first, even if that column has no value, but is left out if it stays empty. A top-level
  value may be the empty text; inside the objects empty texts are left out.
-/

namespace Roster

/-- All values of a record, under their flat keys. -/
def Record.flatRow (r : Record) : Row :=
  Row.ofFields (Column.all.filterMap fun c => (r.value? c).map fun v => (c.flatKey, v.json))

/-- The values of chosen columns, under their flat keys. -/
def Record.flatSelection (r : Record) (columns : List Column) : Row :=
  Row.ofFields (columns.filterMap fun c => (r.nonEmptyValue? c).map fun v => (c.flatKey, v.json))

/-- Whether a record has the outermost object of a group. -/
def Record.hasGroup (r : Record) : ColumnGroup → Bool
  | .scalar => true
  | .address | .geo => r.address.isSome
  | .company => r.company.isSome

/-- The row with the value of one more column inside its objects. -/
def Record.addNested (r : Record) (row : Row) (c : Column) : Row :=
  match c.group.segments with
  | [] =>
    match r.value? c with
    | some v => row.insert c.leaf v.json
    | none => row
  | object :: _ =>
    if r.hasGroup c.group then
      match r.nonEmptyValue? c with
      | some v => (row.insertObject object).insertAt c.segments v.json
      | none => row.insertObject object
    else row

/-- The values of chosen columns, inside their objects. -/
def Record.nestedSelection (r : Record) (columns : List Column) : Row :=
  (columns.foldl r.addNested .empty).filter fun v => !v.isEmptyObject

/-- The row of a record, with all columns or chosen ones. -/
def Record.project (r : Record) (columns : Option (List Column)) (shape : Shape) : Row :=
  match columns, shape with
  | none, .nested => r.row
  | none, .flat => r.flatRow
  | some columns, .nested => r.nestedSelection columns
  | some columns, .flat => r.flatSelection columns

/-- The nested row of a flat one. Names that are no flat keys are passed over. -/
def Row.nest (row : Row) : Row :=
  row.fields.foldl (fun nested (key, value) =>
    match Column.ofFlatKey? key with
    | some c => nested.insertAt c.segments value
    | none => nested) .empty

end Roster
