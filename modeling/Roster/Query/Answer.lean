import Roster.Query.Page
import Roster.Query.Search
import Roster.Query.Sort
import Roster.Row.Projection

/-!
# Answering requests

`answer` takes the records through search, filters and sort, cuts out the page and makes rows of
it. Every request has an answer: what it names and nothing knows is passed over.

The names of the columns are given back as they were requested. If none were, they are all paths
for flat rows, and the names of the outermost fields for nested ones.
-/

namespace Roster

/-- The rows that a request asks for. -/
structure Answer where
  data : List Row
  columns : List String
  total : Nat
  pagination : Option Pagination
  shape : Shape

/-- The names of the outermost fields of a record. -/
def recordFields : List String :=
  ["id", "name", "username", "email", "address", "phone", "website", "company"]

/-- The column names of an answer. -/
def columnNamesOf (requested : Option (List String)) (shape : Shape) : List String :=
  match requested, shape with
  | some names, _ => names
  | none, .flat => Column.all.map Column.path
  | none, .nested => recordFields

/-- The records that a request asks for, before it is cut into pages. -/
def Request.select (q : Request) (records : List Record) : List Record :=
  applySort q.sortBy q.direction (applyFilters q.filters (applySearch q.search records))

/-- The requested column names, if there are any. -/
def Request.names? (q : Request) : Option (List String) :=
  q.columns.filter fun names => !names.isEmpty

/-- The columns that a request chooses, or none if it leaves the choice open. -/
def Request.chosen? (q : Request) : Option (List Column) :=
  q.names?.map fun names => (Column.selection names).map Prod.fst

/-- The answer to a request. -/
def answer (records : List Record) (q : Request) : Answer :=
  let selected := q.select records
  let page := pageWindow? selected.length q.page q.limit
  let shown :=
    match page with
    | some (_, window) => window.slice selected
    | none => selected
  { data := shown.map fun r => r.project q.chosen? q.shape
    columns := columnNamesOf q.names? q.shape
    total := selected.length
    pagination := page.map Prod.fst
    shape := q.shape }

/-- The answer without rows. -/
def Answer.empty (shape : Shape) : Answer :=
  ⟨[], [], 0, none, shape⟩

/-- The position of a page in JSON. -/
def Pagination.json (p : Pagination) : Json :=
  .object [
    ("page", .nat p.page.toNat),
    ("limit", .nat p.limit.toNat),
    ("total", .nat p.total),
    ("pages", .nat p.pages),
    ("has_next", .bool p.hasNext),
    ("has_prev", .bool p.hasPrevious)]

/-- The answer in JSON. -/
def Answer.json (a : Answer) : Json :=
  .object [
    ("data", .array (a.data.map Row.json)),
    ("columns", .strings a.columns),
    ("total", .nat a.total),
    ("pagination", .optional Pagination.json a.pagination),
    ("format", .string a.shape.name)]

open Decoder in
/-- Reads the position of a page. -/
def Pagination.decoder : Decoder Pagination :=
  record [
    requiredField "page" uint32 fun p x => { p with page := x },
    requiredField "limit" uint32 fun p x => { p with limit := x },
    requiredField "total" (natural UInt64.size) fun p x => { p with total := x },
    requiredField "pages" (natural UInt64.size) fun p x => { p with pages := x },
    requiredField "has_next" bool fun p x => { p with hasNext := x },
    requiredField "has_prev" bool fun p x => { p with hasPrevious := x }] ⟨0, 0, 0, 0, false, false⟩

open Decoder in
/-- Reads a row. -/
def Row.decoder : Decoder Row := do
  match Row.ofJson? (← Decoder.json) with
  | some row => return row
  | none => fail .mismatch

open Decoder in
/-- Reads an answer. -/
def Answer.decoder : Decoder Answer :=
  record [
    requiredField "data" (list Row.decoder) fun a x => { a with data := x },
    requiredField "columns" (list string) fun a x => { a with columns := x },
    requiredField "total" (natural UInt64.size) fun a x => { a with total := x },
    arrayField "pagination" (optional Pagination.decoder) fun a x => { a with pagination := x },
    requiredField "format" (member Shape.byName) fun a x => { a with shape := x }] (.empty .nested)

end Roster
