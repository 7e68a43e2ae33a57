import Roster.Number.Literal
import Roster.Number.Shortest
import Roster.Time.Reading

/-!
# Typed values of texts

A `Scalar` is what a text denotes: an integer, a decimal, a timestamp or just the text.

* `Scalar.ofText` decides by the text's form. A text with a point is a decimal if it can be read as
  one; a text without a point is an integer if it can be read as one and fits 64 bits; otherwise it
  may be a timestamp, and if not it stands for itself.
* `compare?` orders numbers among each other, the integer being rounded where the other one is a
  decimal, and timestamps of the same sort. Nothing else compares.
* `equals` is comparison as equal, and identity for two texts.
* `display` is the text of a scalar in messages and answers.
-/

namespace Roster

open Number Time

/-- The value that a text denotes. -/
inductive Scalar
  | integer (value : Int64)
  | decimal (value : Binary64)
  | time (value : Timestamp)
  | text (value : String)
  deriving Repr, DecidableEq

namespace Scalar

/-- The scalar that a text denotes. -/
def ofText (s : String) : Scalar :=
  let cs := s.toList
  let number : Option Scalar :=
    if cs.contains '.' then (binary64? cs).map .decimal else (int64? cs).map .integer
  match number with
  | some scalar => scalar
  | none =>
    match Timestamp.read? cs with
    | some t => .time t
    | none => .text s

/-- Whether a scalar is of a kind that has an order. -/
def isOrdered : Scalar → Bool
  | .text _ => false
  | _ => true

/-- Whether two scalars are of the same kind. All timestamps are of one kind. -/
def sameKind : Scalar → Scalar → Bool
  | .integer _, .integer _ => true
  | .decimal _, .decimal _ => true
  | .time _, .time _ => true
  | .text _, .text _ => true
  | _, _ => false

/-- Compares two numbers or two timestamps of the same sort. -/
def compare? : Scalar → Scalar → Option Ordering
  | .integer a, .integer b => some (order a.toInt b.toInt)
  | .integer a, .decimal b => (Binary64.ofInt a.toInt).compare? b
  | .decimal a, .integer b => a.compare? (Binary64.ofInt b.toInt)
  | .decimal a, .decimal b => a.compare? b
  | .time a, .time b => a.compare? b
  | _, _ => none

/-- Whether two scalars are the same text or compare as equal. -/
def equals : Scalar → Scalar → Bool
  | .text a, .text b => a == b
  | a, b => a.compare? b == some .eq

/-- The text of a decimal: a whole one below `10 ^ 16` with one zero after the point, any other one
in full with the fewest digits that denote it. -/
def decimalText : Binary64 → List Char
  | .nan => ['N', 'a', 'N']
  | .infinite negative => (if negative then ['-'] else []) ++ ['i', 'n', 'f']
  | .finite negative m e =>
    let magnitude :=
      match (Binary64.integral? m e).filter (· < 10000000000000000) with
      | some n => naturalText n ++ ['.', '0']
      | none => (shortest .up m e).positionalText
    (if negative then ['-'] else []) ++ magnitude

/-- The text of a scalar. -/
def display : Scalar → String
  | .integer n => String.ofList (integerText n.toInt)
  | .decimal v => String.ofList (decimalText v)
  | .time t => String.ofList t.text
  | .text s => s

end Scalar

end Roster
