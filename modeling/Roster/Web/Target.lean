import Roster.Text.Utf8
import Roster.Text.Basic

/-!
# Request targets

A target is a path and a query, with a `?` between them; a fragment after `#` is dropped. It may
be written with a scheme and a host before the path.

* `percentDecode` takes escapes `%XX` for bytes. An escape without two hexadecimal digits stands
  for itself.
* `queryPairs` are the names and values of a query: `name=value` with `&` between the pairs, `+`
  for a blank, escapes decoded, and bytes that are no UTF-8 replaced.
-/

namespace Roster.Web

open Text

/-- The path of a target and the query after it. -/
structure Target where
  path : String
  query : String
  deriving Repr, DecidableEq

/-- A target without the scheme and the host before its path. -/
def withoutHost (cs : List Char) : List Char :=
  match cs with
  | '/' :: _ => cs
  | _ =>
    match cut? [':', '/', '/'] cs with
    | some (_, rest) =>
      match rest.dropWhile fun c => c != '/' && c != '?' with
      | '/' :: path => '/' :: path
      | query => '/' :: query
    | none => cs

/-- Takes a target apart. -/
def Target.ofText (text : String) : Target :=
  let cs := withoutHost (text.toList.takeWhile (· != '#'))
  match cut? ['?'] cs with
  | some (path, query) => ⟨String.ofList path, String.ofList query⟩
  | none => ⟨String.ofList cs, ""⟩

/-- The value of a byte that is a hexadecimal digit. -/
def hexByte? (b : UInt8) : Option UInt8 :=
  if 0x30 ≤ b.toNat && b.toNat ≤ 0x39 then some (b - 0x30)
  else if 0x41 ≤ b.toNat && b.toNat ≤ 0x46 then some (b - 0x37)
  else if 0x61 ≤ b.toNat && b.toNat ≤ 0x66 then some (b - 0x57)
  else none

/-- The bytes of a text with its escapes decoded. -/
def percentDecode : List UInt8 → List UInt8
  | [] => []
  | 0x25 :: a :: b :: bytes =>
    match hexByte? a, hexByte? b with
    | some x, some y => (x * 16 + y) :: percentDecode bytes
    | _, _ => 0x25 :: percentDecode (a :: b :: bytes)
  | b :: bytes => b :: percentDecode bytes

/-- A name or a value of a query. -/
def queryText (cs : List Char) : String :=
  let plain := cs.map fun c => if c = '+' then ' ' else c
  lossy (percentDecode (encode (String.ofList plain)))

/-- The pair that a piece of a query stands for. -/
def queryPair (piece : List Char) : String × String :=
  match cut? ['='] piece with
  | some (name, value) => (queryText name, queryText value)
  | none => (queryText piece, "")

/-- The names and values of a query, in order. -/
def queryPairs (query : String) : List (String × String) :=
  ((query.toList.splitOn '&').filter fun piece => !piece.isEmpty).map queryPair

/-- The text of a segment of a path, if its bytes are UTF-8. -/
def segmentText? (segment : String) : Option String :=
  strict? (percentDecode (encode segment))

end Roster.Web
