import Roster.Json.Row

/-!
# Leaves of values

The leaves of a value are the values inside its objects that are no objects with fields, each with
the names that lead to it, in order. An array is a leaf, and so is an object without fields. A row
without fields has no leaves.
-/

namespace Roster

namespace Json

mutual

/-- The leaves of a value with the names that lead to them. -/
def leaves : Json → List (List String × Json)
  | .object (field :: fields) => fieldLeaves (field :: fields)
  | .object [] => [([], .object [])]
  | .null => [([], .null)]
  | .bool b => [([], .bool b)]
  | .number n => [([], .number n)]
  | .string s => [([], .string s)]
  | .array items => [([], .array items)]

/-- The leaves of fields. -/
def fieldLeaves : List (String × Json) → List (List String × Json)
  | [] => []
  | (key, value) :: fields =>
    (leaves value).map (fun leaf => (key :: leaf.1, leaf.2)) ++ fieldLeaves fields

end

/-- The value that names lead to through objects. -/
def at? : List String → Json → Option Json
  | [], value => some value
  | key :: path, value => (value.fields?.bind (Fields.get? key)).bind (at? path)

end Json

namespace Row

/-- The leaves of a row. -/
def leaves (row : Row) : List (List String × Json) :=
  Json.fieldLeaves row.fields

/-- The value that names lead to in a row. -/
def at? (path : List String) (row : Row) : Option Json :=
  row.json.at? path

end Row

end Roster
