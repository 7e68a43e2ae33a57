import Roster.Filter.Basic
import Roster.Text.Blank

/-!
# Reading filter expressions

An expression is a row of clauses with commas between them. A clause is a name, a colon and what is
asked of the value:

* `low..high`, a range, whatever else stands in the texts;
* one of `>=`, `<=`, `!=`, `>`, `<`, `==`, `=` and an operand;
* an operand alone.

Blanks around the parts do not count. A clause without a colon is passed over.
-/

namespace Roster

open Text

/-- The operators with their spellings, the longer of two with the same start first. -/
def Operator.spellings : List (String × Operator) :=
  [(">=", .greaterOrEqual), ("<=", .lessOrEqual), ("!=", .notEqual), (">", .greater),
    ("<", .less), ("==", .equal), ("=", .equal)]

/-- The scalar that a text without the blanks around it denotes. -/
def operand (cs : List Char) : Scalar :=
  .ofText (String.ofList (trim cs))

/-- The operator at the start of a text, and what follows it. -/
def Operator.ofStart? (cs : List Char) : Option (Operator × List Char) :=
  spellings.findSome? fun (spelling, op) => (spelling.toList.isPrefixOf? cs).map fun rest => (op, rest)

/-- The condition that a trimmed text states. -/
def Condition.ofText (cs : List Char) : Condition :=
  match cut? ['.', '.'] cs with
  | some (low, high) => .range (operand low) (operand high)
  | none =>
    match Operator.ofStart? cs with
    | some (op, rest) => .compare op (operand rest)
    | none => .like (operand cs)

/-- The constraint that a clause states, if it has a colon. -/
def Constraint.ofClause? (cs : List Char) : Option Constraint :=
  (cut? [':'] cs).map fun (name, condition) =>
    ⟨String.ofList (trim name), .ofText (trim condition)⟩

/-- The constraints that an expression states, in order. -/
def Constraint.ofExpression (expression : String) : List Constraint :=
  ((expression.toList.splitOn ',').map trim).filterMap Constraint.ofClause?

end Roster
