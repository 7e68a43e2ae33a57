import Roster.Column.Basic
import Roster.Record.Basic
import Roster.Json.Basic
import Roster.Number.Whole

/-!
# The value of a column

`Record.fieldAt?` follows names into a record; only a whole way to a value of its own has one.
`Record.resolve?` takes the name of a column as people write it: with a dot in it a path through
the record, otherwise a flat key.
-/

namespace Roster

/-- A value that a record holds. -/
inductive FieldValue
  | integer (value : Int64)
  | text (value : String)
  deriving Repr, DecidableEq

namespace FieldValue

/-- The value as text. -/
def display : FieldValue → String
  | .integer n => String.ofList (Number.integerText n.toInt)
  | .text s => s

/-- Whether the value is the empty text. -/
def isEmpty : FieldValue → Bool
  | .integer _ => false
  | .text s => s.isEmpty

/-- The value in JSON. -/
def json : FieldValue → Json
  | .integer n => .int n.toInt
  | .text s => .string s

end FieldValue

/-- The value that names lead to in a position. -/
def Geo.fieldAt? (g : Geo) : List String → Option FieldValue
  | ["lat"] => g.lat.map .text
  | ["lng"] => g.lng.map .text
  | _ => none

/-- The value that names lead to in an address. -/
def Address.fieldAt? (a : Address) : List String → Option FieldValue
  | ["street"] => a.street.map .text
  | ["suite"] => a.suite.map .text
  | ["city"] => a.city.map .text
  | ["zipcode"] => a.zipcode.map .text
  | "geo" :: names => a.geo.bind fun g => g.fieldAt? names
  | _ => none

/-- The value that names lead to in a company. -/
def Company.fieldAt? (c : Company) : List String → Option FieldValue
  | ["name"] => c.name.map .text
  | ["catchPhrase"] => c.catchPhrase.map .text
  | ["bs"] => c.bs.map .text
  | _ => none

namespace Record

/-- The value that names lead to in a record. -/
def fieldAt? (r : Record) : List String → Option FieldValue
  | ["id"] => some (.integer r.id)
  | ["name"] => r.name.map .text
  | ["username"] => r.username.map .text
  | ["email"] => r.email.map .text
  | ["phone"] => r.phone.map .text
  | ["website"] => r.website.map .text
  | "address" :: names => r.address.bind fun a => a.fieldAt? names
  | "company" :: names => r.company.bind fun c => c.fieldAt? names
  | _ => none

/-- The value that a path with dots leads to. -/
def resolvePath? (r : Record) (path : String) : Option FieldValue :=
  r.fieldAt? ((path.toList.splitOn '.').map String.ofList)

/-- The value of a column. -/
def value? (r : Record) (c : Column) : Option FieldValue :=
  r.fieldAt? c.segments

/-- The value of a column that is given by name. -/
def resolve? (r : Record) (name : String) : Option FieldValue :=
  if name.toList.contains '.' then r.resolvePath? name
  else (Column.ofFlatKey? name).bind r.value?

/-- The value of a column, unless it is the empty text. -/
def nonEmptyValue? (r : Record) (c : Column) : Option FieldValue :=
  (r.value? c).filter fun v => !v.isEmpty

end Record

end Roster
