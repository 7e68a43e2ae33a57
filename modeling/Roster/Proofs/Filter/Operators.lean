import Roster.Proofs.Filter.Range
import Roster.Proofs.Scalar.Comparison

/-!
# The operators among each other

- **A comparison with an outcome** (`accepts_compare_of_compare?`): where the value of a record and
  the operand compare, all six operators look at the outcome alone (`Operator.isMetBy`).
- **Equality and its negation** (`accepts_notEqual`) are opposites for every value, and for none,
  also where only texts are compared.
- **The six expressions** (`operators_partition`): one of `==` and `!=` accepts a record. If the
  value and the operand compare, so does one of `<`, `==` and `>`, and `>=` and `<=` are the
  opposites of `<` and `>`; if they do not, no ordering operator accepts it.
-/

namespace Roster

open Text

/-! ## Outcomes -/

section Outcomes

variable {value : Option FieldValue} {operand t : Scalar} {op : Operator} {o : Ordering}

/-- A value of a record is a number, or no decimal at all. -/
theorem FieldValue.scalar_ne_nan (v : FieldValue) : v.scalar ≠ .decimal .nan := by
  cases v with
  | integer n => simp [scalar]
  | text s => exact Scalar.ofText_ne_nan s

namespace Operator

/-- Whether an outcome is what an operator asks for. -/
def isMetBy : Operator → Ordering → Bool
  | .equal, o => o == .eq
  | .notEqual, o => o != .eq
  | .greater, o => o == .gt
  | .greaterOrEqual, o => o != .lt
  | .less, o => o == .lt
  | .lessOrEqual, o => o != .gt

private theorem holds_of_compare? (h : t.compare? operand = some o) :
    op.holds t operand = op.isMetBy o := by
  have hequals : t.equals operand = (o == .eq) := by
    cases t <;> cases operand <;> first | simp only [Scalar.equals, h]; rfl | cases h
  cases op with
  | equal => exact hequals
  | notEqual => exact congrArg Bool.not hequals
  | _ => simp only [holds, h]; rfl

theorem isOrdering_greater : greater.IsOrdering := by
  constructor <;> decide

theorem isOrdering_less : less.IsOrdering := by
  constructor <;> decide

end Operator

namespace Condition

theorem accepts_compare_of_compare? (ht : value.map FieldValue.scalar = some t)
    (h : t.compare? operand = some o) :
    (compare op operand).accepts value = op.isMetBy o := by
  obtain ⟨htarget, hoperand⟩ := Scalar.isOrdered_of_compare? h
  rw [accepts, ht, Option.filter_some, htarget, hoperand]
  exact Operator.holds_of_compare? h

/-- Of the two one is the negation of the other, of values and of texts. -/
theorem accepts_notEqual (operand : Scalar) (value : Option FieldValue) :
    (compare .notEqual operand).accepts value = !(compare .equal operand).accepts value := by
  rw [accepts, accepts]
  split <;> rfl

/-- No ordering operator accepts a value that does not compare with the operand. -/
theorem accepts_compare_eq_false (hop : op.IsOrdering)
    (h : ∀ t, value.map FieldValue.scalar = some t → t.isComparable operand = false)
    (hoperand : operand ≠ .decimal .nan) : (compare op operand).accepts value = false := by
  refine Bool.eq_false_iff.mpr fun haccepts => ?_
  obtain ⟨t, ht, hadmits⟩ := (accepts_compare_iff hop).mp haccepts
  obtain ⟨v, -, rfl⟩ := Option.map_eq_some_iff.mp ht
  obtain ⟨o, ho⟩ := Operator.exists_of_admits hadmits
  have hcomparable : v.scalar.isComparable operand = true :=
    (Scalar.compare?_isSome_iff v.scalar_ne_nan hoperand).mp (by rw [ho]; rfl)
  exact Bool.false_ne_true ((h _ ht).symm.trans hcomparable)

end Condition

end Outcomes

/-! ## One clause -/

variable {key value : String}

/-- An expression without a comma states one constraint. -/
theorem ofExpression_clause {expression : String} {condition : List Char} (hkey : ',' ∉ key.toList)
    (hcolon : ':' ∉ key.toList) (hcondition : ',' ∉ condition)
    (h : expression.toList = key.toList ++ ':' :: condition) :
    Constraint.ofExpression expression = [⟨clauseTarget key, .ofText (trim condition)⟩] := by
  have hcomma : ∀ clause ∈ [key.toList ++ ':' :: condition], ',' ∉ clause := by
    simp [hkey, hcondition]
  rw [Constraint.ofExpression_of_intercalate hcomma (by simp [h]), List.filterMap_cons,
    Constraint.ofClause?_append hcolon]
  rfl

/-- The constraint that compares the column of a key with a value. -/
def comparison (key : String) (op : Operator) (value : String) : Constraint :=
  ⟨clauseTarget key, .compare op (operand value.toList)⟩

theorem ofExpression_comparison {expression spelling : String} {op : Operator}
    (hmem : (spelling, op) ∈ Operator.spellings) (hkey : ',' ∉ key.toList)
    (hcolon : ':' ∉ key.toList) (hvalue : ',' ∉ value.toList)
    (hdots : ¬ ['.', '.'] <:+: value.toList)
    (hstart : spelling ∈ [">", "<", "="] → ¬ ['='] <+: value.toList)
    (h : expression.toList = key.toList ++ ':' :: (spelling.toList ++ value.toList)) :
    Constraint.ofExpression expression = [comparison key op value] := by
  have hspelling : ',' ∉ spelling.toList := by
    have hall : ∀ s ∈ Operator.spellings, ',' ∉ s.1.toList := by decide
    exact hall _ hmem
  have hcondition : ',' ∉ spelling.toList ++ value.toList := by simp [hspelling, hvalue]
  rw [ofExpression_clause hkey hcolon hcondition h, Condition.ofText_compare hmem hdots hstart]
  rfl

/-! ## The six expressions -/

/-- The typed value of a record under the key of a clause, if it has one. -/
def targetScalar? (r : Record) (key : String) : Option Scalar :=
  (r.resolve? (clauseTarget key)).map FieldValue.scalar

/-- Whether a record has a value under a key that compares with the operand of a clause. -/
def IsComparableAt (r : Record) (key value : String) : Prop :=
  ∃ t, targetScalar? r key = some t ∧ t.isComparable (operand value.toList) = true

variable {r : Record}

theorem comparison_notEqual_accepts (r : Record) (key value : String) :
    (comparison key .notEqual value).accepts r = !(comparison key .equal value).accepts r :=
  Condition.accepts_notEqual _ _

/-- All operators agree on the outcome. -/
theorem exists_outcome (h : IsComparableAt r key value) :
    ∃ o, ∀ op, (comparison key op value).accepts r = Operator.isMetBy op o := by
  obtain ⟨t, ht, hcomparable⟩ := h
  have htarget : t ≠ .decimal .nan := by
    obtain ⟨v, -, rfl⟩ := Option.map_eq_some_iff.mp ht
    exact v.scalar_ne_nan
  have hsome := (Scalar.compare?_isSome_iff htarget (Scalar.ofText_ne_nan _)).mpr hcomparable
  obtain ⟨o, ho⟩ := Option.isSome_iff_exists.mp hsome
  exact ⟨o, fun op => Condition.accepts_compare_of_compare? ht ho⟩

theorem comparison_accepts_eq_false {op : Operator} (hop : op.IsOrdering)
    (h : ¬ IsComparableAt r key value) : (comparison key op value).accepts r = false := by
  refine Condition.accepts_compare_eq_false hop (fun t ht => ?_) (Scalar.ofText_ne_nan _)
  exact Bool.eq_false_iff.mpr fun hcomparable => h ⟨t, ht, hcomparable⟩

/-- **The operators partition the values.** Of `==` and `!=` exactly one accepts a record. If the
record has a value that compares with the operand, exactly one of `<`, `==` and `>` accepts it, and
`>=` and `<=` accept what `<` and `>` do not. Otherwise no ordering operator accepts it. -/
theorem operators_partition (r : Record) (hkey : ',' ∉ key.toList) (hcolon : ':' ∉ key.toList)
    (hvalue : ',' ∉ value.toList) (hdots : ¬ ['.', '.'] <:+: value.toList) :
    ∃ equal notEqual,
      Constraint.ofExpression (key ++ ":==" ++ value) = [equal] ∧
      Constraint.ofExpression (key ++ ":!=" ++ value) = [notEqual] ∧
      [equal, notEqual].countP (·.accepts r) = 1 ∧
      (¬ ['='] <+: value.toList →
        ∃ less lessOrEqual greater greaterOrEqual,
          Constraint.ofExpression (key ++ ":<" ++ value) = [less] ∧
          Constraint.ofExpression (key ++ ":<=" ++ value) = [lessOrEqual] ∧
          Constraint.ofExpression (key ++ ":>" ++ value) = [greater] ∧
          Constraint.ofExpression (key ++ ":>=" ++ value) = [greaterOrEqual] ∧
          (IsComparableAt r key value →
            [less, equal, greater].countP (·.accepts r) = 1 ∧
            (greaterOrEqual.accepts r = true ↔ ¬ less.accepts r = true) ∧
            (lessOrEqual.accepts r = true ↔ ¬ greater.accepts r = true)) ∧
          (¬ IsComparableAt r key value →
            ∀ c ∈ [less, lessOrEqual, greater, greaterOrEqual], c.accepts r = false)) := by
  have hread {spelling : String} {op : Operator} (hmem : (spelling, op) ∈ Operator.spellings)
      (hstart : spelling ∈ [">", "<", "="] → ¬ ['='] <+: value.toList) {expression : String}
      (h : expression.toList = key.toList ++ ':' :: (spelling.toList ++ value.toList)) :
      Constraint.ofExpression expression = [comparison key op value] :=
    ofExpression_comparison hmem hkey hcolon hvalue hdots hstart h
  refine ⟨comparison key .equal value, comparison key .notEqual value, ?_, ?_, ?_, fun hstart => ?_⟩
  · exact hread (by decide : ("==", Operator.equal) ∈ _) (by simp) (by simp)
  · exact hread (by decide : ("!=", Operator.notEqual) ∈ _) (by simp) (by simp)
  · simp only [List.countP_cons, List.countP_nil, comparison_notEqual_accepts]
    cases (comparison key .equal value).accepts r <;> rfl
  refine ⟨comparison key .less value, comparison key .lessOrEqual value,
    comparison key .greater value, comparison key .greaterOrEqual value, ?_, ?_, ?_, ?_, ?_, ?_⟩
  · exact hread (by decide : ("<", Operator.less) ∈ _) (fun _ => hstart) (by simp)
  · exact hread (by decide : ("<=", Operator.lessOrEqual) ∈ _) (by simp) (by simp)
  · exact hread (by decide : (">", Operator.greater) ∈ _) (fun _ => hstart) (by simp)
  · exact hread (by decide : (">=", Operator.greaterOrEqual) ∈ _) (by simp) (by simp)
  · intro hcomparable
    -- One outcome of the comparison says what each of the operators answers.
    obtain ⟨o, ho⟩ := exists_outcome hcomparable
    simp only [List.countP_cons, List.countP_nil, ho]
    cases o <;> decide
  · intro hcomparable
    simp only [List.forall_mem_cons]
    exact ⟨comparison_accepts_eq_false Operator.isOrdering_less hcomparable,
      comparison_accepts_eq_false Operator.isOrdering_lessOrEqual hcomparable,
      comparison_accepts_eq_false Operator.isOrdering_greater hcomparable,
      comparison_accepts_eq_false Operator.isOrdering_greaterOrEqual hcomparable, by simp⟩

/-- An id beside a decimal: of the three comparisons the first one accepts it. -/
theorem operators_partition_id :
    IsComparableAt { id := 3 } "id" " 3.5" ∧ ¬ ['='] <+: " 3.5".toList ∧
      ∃ less equal greater,
        Constraint.ofExpression "id:< 3.5" = [less] ∧
        Constraint.ofExpression "id:== 3.5" = [equal] ∧
        Constraint.ofExpression "id:> 3.5" = [greater] ∧
        [less, equal, greater].countP (·.accepts { id := 3 }) = 1 := by
  have hcomparable : IsComparableAt { id := 3 } "id" " 3.5" := ⟨.integer 3, by decide, by decide⟩
  have hstart : ¬ ['='] <+: " 3.5".toList := by decide
  obtain ⟨equal, _, hequal, -, -, hordering⟩ :=
    @operators_partition "id" " 3.5" { id := 3 } (by decide) (by decide) (by decide) (by decide)
  obtain ⟨less, _, greater, _, hless, -, hgreater, -, hone, -⟩ := hordering hstart
  exact ⟨hcomparable, hstart, less, equal, greater, hless, hequal, hgreater, (hone hcomparable).1⟩

end Roster
