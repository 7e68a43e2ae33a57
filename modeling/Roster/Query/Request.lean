import Roster.Json.Decode
import Roster.Column.Selection

/-!
# Requests

A `Request` says which records are asked for and in which shape. It can be written and read as
JSON; reading gives what is left out its default. The limits on pages (`Request.check`) belong to
the surfaces on which requests arrive, not to the answering of them.
-/

namespace Roster

/-- The shape of the rows of an answer. -/
inductive Shape
  /-- Addresses and companies are objects inside a row. -/
  | nested
  /-- Every value stands under its flat key. -/
  | flat
  deriving Repr, DecidableEq

/-- The direction of a sort. -/
inductive Direction
  | ascending
  | descending
  deriving Repr, DecidableEq

/-- The name of a shape. -/
def Shape.name : Shape → String
  | .nested => "nested"
  | .flat => "flat"

/-- The name of a direction. -/
def Direction.name : Direction → String
  | .ascending => "asc"
  | .descending => "desc"

/-- The shapes by their names. -/
def Shape.byName : List (String × Shape) :=
  [("nested", .nested), ("flat", .flat)]

/-- The directions by their names. -/
def Direction.byName : List (String × Direction) :=
  [("asc", .ascending), ("desc", .descending)]

/-- What is asked for. -/
structure Request where
  columns : Option (List String) := none
  page : Option UInt32 := none
  limit : Option UInt32 := none
  search : Option String := none
  filters : Option String := none
  sortBy : Option String := none
  direction : Direction := .ascending
  shape : Shape := .nested
  deriving Repr, DecidableEq

/-- Why the page of a request is refused. -/
inductive PageFault
  /-- The page is zero. -/
  | page
  /-- The limit is zero or above the greatest one. -/
  | limit (greatest : UInt32)
  deriving Repr, DecidableEq

namespace Request

/-- Whether the page and the limit of a request are allowed, the page being looked at first. -/
def check (greatestLimit : UInt32) (r : Request) : Except PageFault Unit :=
  if r.page.any fun p => p.toNat < 1 then .error .page
  else if r.limit.any fun l => l.toNat < 1 || greatestLimit.toNat < l.toNat then
    .error (.limit greatestLimit)
  else .ok ()

/-- The request as JSON, with every field. -/
def json (r : Request) : Json :=
  .object [
    ("columns", .optional .strings r.columns),
    ("page", .optional (fun p => .nat p.toNat) r.page),
    ("limit", .optional (fun l => .nat l.toNat) r.limit),
    ("search", .optional .string r.search),
    ("filters", .optional .string r.filters),
    ("sort_by", .optional .string r.sortBy),
    ("sort_order", .string r.direction.name),
    ("format", .string r.shape.name)]

open Decoder in
/-- Reads a request. -/
def decoder : Decoder Request :=
  record [
    field "columns" (optional (list string)) fun r x => { r with columns := x },
    field "page" (optional uint32) fun r x => { r with page := x },
    field "limit" (optional uint32) fun r x => { r with limit := x },
    field "search" (optional string) fun r x => { r with search := x },
    field "filters" (optional string) fun r x => { r with filters := x },
    field "sort_by" (optional string) fun r x => { r with sortBy := x },
    field "sort_order" (member Direction.byName) fun r x => { r with direction := x },
    field "format" (member Shape.byName) fun r x => { r with shape := x }] {}

end Request

end Roster
