import Roster.Scalar
import Roster.Column.Value
import Roster.Text.Lowercase

/-!
# Constraints on records

A `Constraint` names a column and puts a condition on its value in a record.

* `range` asks for a value between two bounds of its own kind.
* `compare` applies an operator. Two values that have an order are compared as what they are;
  otherwise the lowercase texts are compared, for which only `==` and `!=` can hold.
* `like` asks for an equal value if the operand has an order, and otherwise for a text that
  contains the operand, letter case aside.

An absent value meets no `range` and no `like`; for `compare` it is the empty text.
-/

namespace Roster

/-- A comparison. -/
inductive Operator
  | equal
  | notEqual
  | greater
  | greaterOrEqual
  | less
  | lessOrEqual
  deriving Repr, DecidableEq

/-- What is asked of a value. -/
inductive Condition
  | range (low high : Scalar)
  | compare (operator : Operator) (operand : Scalar)
  | like (operand : Scalar)
  deriving Repr, DecidableEq

/-- A condition on the column of a name. -/
structure Constraint where
  target : String
  condition : Condition
  deriving Repr, DecidableEq

/-- The typed value of a field: numbers stay what they are, texts are read. -/
def FieldValue.scalar : FieldValue → Scalar
  | .integer n => .integer n
  | .text s => .ofText s

/-- The lowercase form of a text. -/
def lowercase (s : String) : List Char :=
  Text.lower s.toList

namespace Operator

/-- Whether a comparison with a given outcome is what the operator asks for. -/
def admits : Operator → Option Ordering → Bool
  | .greater, some o => o == .gt
  | .greaterOrEqual, some o => o != .lt
  | .less, some o => o == .lt
  | .lessOrEqual, some o => o != .gt
  | _, _ => false

/-- Whether the operator holds between two values. -/
def holds (op : Operator) (target operand : Scalar) : Bool :=
  match op with
  | .equal => target.equals operand
  | .notEqual => !target.equals operand
  | op => op.admits (target.compare? operand)

/-- Whether the operator holds between two texts, letter case aside. -/
def holdsOnText (op : Operator) (target operand : String) : Bool :=
  match op with
  | .equal => lowercase target == lowercase operand
  | .notEqual => lowercase target != lowercase operand
  | _ => false

end Operator

namespace Condition

/-- Whether a value, or its absence, meets a condition. -/
def accepts (condition : Condition) (value : Option FieldValue) : Bool :=
  match condition with
  | .range low high =>
    match value.map FieldValue.scalar with
    | some t =>
      t.isOrdered && low.sameKind t && high.sameKind t
        && Operator.greaterOrEqual.holds t low && Operator.lessOrEqual.holds t high
    | none => false
  | .compare op operand =>
    match (value.map FieldValue.scalar).filter fun t => t.isOrdered && operand.isOrdered with
    | some t => op.holds t operand
    | none => op.holdsOnText ((value.map FieldValue.display).getD "") operand.display
  | .like operand =>
    match value with
    | some v =>
      if operand.isOrdered then v.scalar.equals operand
      else Text.occursIn (lowercase operand.display) (lowercase v.display)
    | none => false

end Condition

/-- Whether a record meets a constraint. -/
def Constraint.accepts (c : Constraint) (r : Record) : Bool :=
  c.condition.accepts (r.resolve? c.target)

end Roster
