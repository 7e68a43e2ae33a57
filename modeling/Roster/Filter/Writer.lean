import Roster.Filter.Reader

/-!
# Writing filter expressions

A `Clause` is what a clause of an expression says: a name and a body. `Clause.text` writes it with
blanks at every place where they do not count (`Clause.Spacing`), `expressionText` writes a row of
clauses with commas between them, and `Clause.constraint` is the constraint that a clause states.

A clause can be read back if its parts do not contain what separates them (`Clause.isPlain`).
-/

namespace Roster

open Text

/-- What a clause asks of the value. -/
inductive ClauseBody
  | range (low high : List Char)
  /-- An operator by its spelling, and an operand. -/
  | compare (spelling : String) (operator : Operator) (operand : List Char)
  | like (operand : List Char)
  deriving Repr, DecidableEq

/-- A name and what is asked of the value. -/
structure Clause where
  name : List Char
  body : ClauseBody
  deriving Repr, DecidableEq

/-- The blanks in a clause. -/
structure Clause.Spacing where
  beforeName : List Char := []
  afterName : List Char := []
  beforeBody : List Char := []
  /-- Before the dots of a range. -/
  beforeDots : List Char := []
  /-- After the dots of a range, or after an operator. -/
  beforeOperand : List Char := []
  afterBody : List Char := []
  deriving Repr, DecidableEq

/-- Whether there is nothing but blanks. -/
def Clause.Spacing.isBlank (spacing : Clause.Spacing) : Bool :=
  [spacing.beforeName, spacing.afterName, spacing.beforeBody, spacing.beforeDots,
    spacing.beforeOperand, spacing.afterBody].all fun cs => cs.all Text.isBlank

/-- The text of a body. -/
def ClauseBody.text (spacing : Clause.Spacing) : ClauseBody → List Char
  | .range low high =>
    low ++ spacing.beforeDots ++ ['.', '.'] ++ spacing.beforeOperand ++ high
  | .compare spelling _ operand => spelling.toList ++ spacing.beforeOperand ++ operand
  | .like operand => operand

/-- The condition that a body states. -/
def ClauseBody.condition : ClauseBody → Condition
  | .range low high => .range (.ofText (String.ofList low)) (.ofText (String.ofList high))
  | .compare _ operator operand => .compare operator (.ofText (String.ofList operand))
  | .like operand => .like (.ofText (String.ofList operand))

namespace Clause

/-- The text of a clause. -/
def text (spacing : Spacing) (c : Clause) : List Char :=
  spacing.beforeName ++ c.name ++ spacing.afterName ++ [':'] ++ spacing.beforeBody
    ++ c.body.text spacing ++ spacing.afterBody

/-- The constraint that a clause states. -/
def constraint (c : Clause) : Constraint :=
  ⟨String.ofList c.name, c.body.condition⟩

/-- Whether a text is an operand: without commas, and without blanks around it. -/
def isOperand (cs : List Char) : Bool :=
  !cs.contains ',' && trim cs == cs

/-- Whether a body can be read back. -/
def isPlainBody : ClauseBody → Bool
  | .range low high =>
    isOperand low && isOperand high && !occursIn ['.', '.'] low && low.getLast? != some '.'
  | .compare spelling operator operand =>
    Operator.spellings.contains (spelling, operator) && isOperand operand
      && !occursIn ['.', '.'] operand
      && !([">", "<", "="].contains spelling && ['='].isPrefixOf operand)
  | .like operand =>
    isOperand operand && !occursIn ['.', '.'] operand
      && [['>'], ['<'], ['='], ['!', '=']].all fun start => !start.isPrefixOf operand

/-- Whether a clause can be read back. -/
def isPlain (c : Clause) : Bool :=
  isOperand c.name && !c.name.contains ':' && isPlainBody c.body

end Clause

/-- A piece of an expression between two commas: a clause with its blanks, or a text without a
colon, which says nothing. -/
inductive ExpressionPiece
  | clause (spacing : Clause.Spacing) (clause : Clause)
  | remark (text : List Char)
  deriving Repr, DecidableEq

namespace ExpressionPiece

/-- The text of a piece. -/
def text : ExpressionPiece → List Char
  | .clause spacing c => c.text spacing
  | .remark cs => cs

/-- The clause of a piece, if it is one. -/
def clause? : ExpressionPiece → Option Clause
  | .clause _ c => some c
  | .remark _ => none

/-- Whether a piece can be read back. -/
def isPlain : ExpressionPiece → Bool
  | .clause spacing c => spacing.isBlank && c.isPlain
  | .remark cs => !cs.contains ',' && !cs.contains ':'

end ExpressionPiece

/-- The expression of a row of pieces. -/
def expressionText (pieces : List ExpressionPiece) : String :=
  String.ofList ([','].intercalate (pieces.map ExpressionPiece.text))

end Roster
