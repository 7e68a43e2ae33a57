import Roster.Failure
import Roster.Query.Request

/-!
# Query parameters

The parameters of a query for records arrive as texts. `DataParameters.request` reads a request
from them: an empty text counts as not given, except for numbers, shapes and directions, which have
to be well formed if they are given at all. `DataParameters.ofRequest` writes the parameters of a
request.
-/

namespace Roster.Web

open Number

/-- The parameters of a query for records. -/
structure DataParameters where
  columns : Option String := none
  page : Option String := none
  limit : Option String := none
  search : Option String := none
  filters : Option String := none
  sortBy : Option String := none
  sortOrder : Option String := none
  format : Option String := none
  deriving Repr, DecidableEq

/-- The parameters of a search. -/
structure SearchParameters where
  q : Option String := none
  columns : Option String := none
  format : Option String := none
  deriving Repr, DecidableEq

open Decoder in
/-- Reads the parameters of a query from JSON. -/
def DataParameters.decoder : Decoder DataParameters :=
  record [
    arrayField "columns" (optional string) fun p x => { p with columns := x },
    arrayField "page" (optional string) fun p x => { p with page := x },
    arrayField "limit" (optional string) fun p x => { p with limit := x },
    arrayField "search" (optional string) fun p x => { p with search := x },
    arrayField "filters" (optional string) fun p x => { p with filters := x },
    arrayField "sort_by" (optional string) fun p x => { p with sortBy := x },
    arrayField "sort_order" (optional string) fun p x => { p with sortOrder := x },
    arrayField "format" (optional string) fun p x => { p with format := x }] {}

/-- The value of a name that may be given once. -/
def once? (pairs : List (String × String)) (name : String) : Except String (Option String) :=
  match (pairs.filter fun pair => pair.1 == name).map Prod.snd with
  | [] => .ok none
  | [value] => .ok (some value)
  | _ => .error name

/-- The parameters of a query for records among pairs; a name that is given twice is reported. -/
def DataParameters.ofPairs (pairs : List (String × String)) : Except String DataParameters := do
  return {
    columns := ← once? pairs "columns"
    page := ← once? pairs "page"
    limit := ← once? pairs "limit"
    search := ← once? pairs "search"
    filters := ← once? pairs "filters"
    sortBy := ← once? pairs "sort_by"
    sortOrder := ← once? pairs "sort_order"
    format := ← once? pairs "format" }

/-- The parameters of a search among pairs; a name that is given twice is reported. -/
def SearchParameters.ofPairs (pairs : List (String × String)) : Except String SearchParameters := do
  return {
    q := ← once? pairs "q"
    columns := ← once? pairs "columns"
    format := ← once? pairs "format" }

/-- A text, unless it is empty. -/
def given (text : Option String) : Option String :=
  text.filter fun s => !s.isEmpty

/-- The word that the digits in a text denote, blanks around them aside. -/
def word32? (text : String) : Option UInt32 :=
  (naturalBelow? UInt32.size (Text.trim text.toList)).map UInt32.ofNat

/-- The number in a parameter. -/
def numberOf (name : String) (text : Option String) : Except Failure (Option UInt32) :=
  match text with
  | none => .ok none
  | some s =>
    match word32? s with
    | some n => .ok (some n)
    | none => .error (.parameter name (.notInteger s))

/-- The shape in a parameter. -/
def shapeOf (text : Option String) : Except Failure Shape :=
  match text with
  | none => .ok .nested
  | some s =>
    match Shape.byName.lookup s with
    | some shape => .ok shape
    | none => .error (.parameter "format" (.notShape s))

/-- The direction in a parameter. -/
def directionOf (text : Option String) : Except Failure Direction :=
  match text with
  | none => .ok .ascending
  | some s =>
    match Direction.byName.lookup s with
    | some direction => .ok direction
    | none => .error (.parameter "sort_order" (.notDirection s))

/-- The request that parameters stand for. -/
def DataParameters.request (p : DataParameters) : Except Failure Request := do
  let page ← numberOf "page" p.page
  let limit ← numberOf "limit" p.limit
  let direction ← directionOf p.sortOrder
  let shape ← shapeOf p.format
  return {
    columns := (given p.columns).map columnNames
    page, limit
    search := given p.search
    filters := given p.filters
    sortBy := given p.sortBy
    direction, shape }

/-- A word in decimal. -/
def word32Text (n : UInt32) : String :=
  String.ofList (naturalText n.toNat)

/-- The parameters that stand for a request. -/
def DataParameters.ofRequest (q : Request) : DataParameters :=
  { columns := q.columns.map fun names => String.ofList ([','].intercalate (names.map String.toList))
    page := q.page.map word32Text
    limit := q.limit.map word32Text
    search := q.search
    filters := q.filters
    sortBy := q.sortBy
    sortOrder := some q.direction.name
    format := some q.shape.name }

end Roster.Web
