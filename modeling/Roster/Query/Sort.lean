import Roster.Column.Value
import Roster.Query.Request
import Roster.Text.Lowercase
import Roster.Text.Order
import Roster.Filter.Basic

/-!
# Sorting

Records are sorted by one of ten keys (`SortKey`): ids by their number, everything else by the
lowercase text, an absent value being the empty text. The sort is stable in both directions:
records with equal keys keep their order.
-/

namespace Roster

/-- What records can be sorted by. -/
inductive SortKey
  | id
  | name
  | username
  | email
  | phone
  | website
  | city
  | street
  | companyName
  | catchPhrase
  deriving Repr, DecidableEq

namespace SortKey

/-- The key with a name. -/
def ofName? : String → Option SortKey
  | "id" => some .id
  | "name" => some .name
  | "username" => some .username
  | "email" => some .email
  | "phone" => some .phone
  | "website" => some .website
  | "city" => some .city
  | "address.city" => some .city
  | "street" => some .street
  | "address.street" => some .street
  | "company" => some .companyName
  | "company.name" => some .companyName
  | "company.catchPhrase" => some .catchPhrase
  | _ => none

/-- The column that a key is about. -/
def column : SortKey → Column
  | .id => .id
  | .name => .name
  | .username => .username
  | .email => .email
  | .phone => .phone
  | .website => .website
  | .city => .city
  | .street => .street
  | .companyName => .companyName
  | .catchPhrase => .companyCatchPhrase

end SortKey

/-- The value that a record is sorted by. -/
inductive SortValue
  | number (n : Int)
  | text (cs : List Char)
  deriving Repr, DecidableEq

/-- Whether the first value comes before the second or is equal to it. Numbers come first. -/
def SortValue.precedes : SortValue → SortValue → Bool
  | .number a, .number b => a ≤ b
  | .number _, .text _ => true
  | .text _, .number _ => false
  | .text a, .text b => Text.precedes a b

/-- The value that a key takes from a record. -/
def SortKey.valueOf (key : SortKey) (r : Record) : SortValue :=
  match r.value? key.column with
  | some (.integer n) => .number n.toInt
  | some (.text s) => .text (lowercase s)
  | none => .text []

/-- Whether two values stand in the order of a direction, or are equal. -/
def Direction.inOrder (d : Direction) (a b : SortValue) : Bool :=
  match d with
  | .ascending => a.precedes b
  | .descending => b.precedes a

/-- The records in the order of a key. -/
def sortByKey (key : SortKey) (d : Direction) (records : List Record) : List Record :=
  let keyed := records.map fun r => (key.valueOf r, r)
  (keyed.mergeSort fun a b => d.inOrder a.1 b.1).map Prod.snd

/-- The records in the order that a request asks for. A name of no key leaves them as they are. -/
def applySort (sortBy : Option String) (d : Direction) (records : List Record) : List Record :=
  match sortBy.bind SortKey.ofName? with
  | some key => sortByKey key d records
  | none => records

end Roster
