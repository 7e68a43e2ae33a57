import Roster.Proofs.Filter.Matching
import Roster.Proofs.Filter.Reading

/-!
# A range and its two bounds

`key:low..high` and `key:>=low,key:<=high` ask the same of a record, but for the kinds of numbers:
a range wants its bounds and the value to be of one kind, an operator compares an integer with a
decimal (`range_accepts_iff`).

Both texts are read to constraints on the same bounds, unless the high one holds a pair of dots.
Then `<=high` is read as a range itself, from a text that begins with the operator; that range
accepts nothing (`accepts_ofText_of_pair`), and neither does the other one, whose high bound is a
text (`accepts_range_of_pair`).
-/

namespace Roster

open Text

/-! ## Texts that are no bounds -/

private theorem operand_of_pair {cs : List Char} (h : ['.', '.'] <:+: cs) :
    operand cs = .text (String.ofList (trim cs)) := by
  refine Scalar.ofText_of_pair ?_
  rw [String.toList_ofList, pair_infix_trim_iff (by decide)]
  exact h

/-- No operand begins with `<`, unless it is a text. -/
private theorem operand_of_less (cs : List Char) :
    operand ('<' :: cs) = .text (String.ofList (trim ('<' :: cs))) := by
  refine Scalar.ofText_of_start (c := '<') (by decide) (by decide) (by decide) ?_
  rw [String.toList_ofList, trim_cons (by decide)]
  exact ⟨trimEnd cs, rfl⟩

namespace Condition

theorem accepts_range_of_pair {cs : List Char} (h : ['.', '.'] <:+: cs) (low : Scalar)
    (value : Option FieldValue) : (range low (operand cs)).accepts value = false := by
  refine Bool.eq_false_iff.mpr fun haccepts => ?_
  have hordered := (isOrdered_of_accepts_range haccepts).2
  rw [operand_of_pair h] at hordered
  cases hordered

/-- An operator before a pair of dots belongs to the low bound, which is a text then. -/
theorem accepts_ofText_of_pair {cs : List Char} (h : ['.', '.'] <:+: cs)
    (value : Option FieldValue) : (ofText (trim ('<' :: cs))).accepts value = false := by
  have hpair : ['.', '.'] <:+: trim ('<' :: cs) :=
    (pair_infix_trim_iff (by decide)).mpr (List.infix_cons h)
  obtain ⟨low, high, hcs, hrange⟩ := ofText_of_pair hpair
  rw [trim_cons (by decide)] at hcs
  rw [hrange]
  cases low with
  | nil => cases hcs
  | cons c low =>
    obtain ⟨rfl, -⟩ := List.cons.inj hcs
    refine Bool.eq_false_iff.mpr fun haccepts => ?_
    have hordered := (isOrdered_of_accepts_range haccepts).1
    rw [operand_of_less] at hordered
    cases hordered

end Condition

/-! ## The two expressions -/

variable {key low high : String}

/-- The target of a clause with a key. -/
def clauseTarget (key : String) : String :=
  String.ofList (trim key.toList)

theorem ofExpression_range (hkey : ',' ∉ key.toList) (hcolon : ':' ∉ key.toList)
    (hlow : ',' ∉ low.toList) (hhigh : ',' ∉ high.toList) (hdots : ¬ ['.', '.'] <:+: low.toList)
    (hlast : ¬ ['.'] <:+ low.toList) :
    Constraint.ofExpression (key ++ ":" ++ low ++ ".." ++ high)
      = [⟨clauseTarget key, .range (operand low.toList) (operand high.toList)⟩] := by
  have hcomma : ∀ clause ∈ [key.toList ++ ':' :: (low.toList ++ '.' :: '.' :: high.toList)],
      ',' ∉ clause := by
    simp [hkey, hlow, hhigh]
  rw [Constraint.ofExpression_of_intercalate hcomma (by simp), List.filterMap_cons,
    Constraint.ofClause?_append hcolon, Condition.ofText_range hdots hlast]
  rfl

/-- The high bound may hold a pair of dots, so its condition is left unread. -/
theorem ofExpression_bounds (hkey : ',' ∉ key.toList) (hcolon : ':' ∉ key.toList)
    (hlow : ',' ∉ low.toList) (hhigh : ',' ∉ high.toList)
    (hdots : ¬ ['.', '.'] <:+: low.toList) :
    Constraint.ofExpression (key ++ ":>=" ++ low ++ "," ++ key ++ ":<=" ++ high)
      = [⟨clauseTarget key, .compare .greaterOrEqual (operand low.toList)⟩,
          ⟨clauseTarget key, .ofText (trim ('<' :: '=' :: high.toList))⟩] := by
  have hcomma : ∀ clause ∈ [key.toList ++ ':' :: '>' :: '=' :: low.toList,
      key.toList ++ ':' :: '<' :: '=' :: high.toList], ',' ∉ clause := by
    simp [hkey, hlow, hhigh]
  have hleast : Condition.ofText (trim ('>' :: '=' :: low.toList))
      = .compare .greaterOrEqual (operand low.toList) :=
    @Condition.ofText_compare ">=" .greaterOrEqual low.toList (by decide) hdots (by simp)
  rw [Constraint.ofExpression_of_intercalate hcomma (by simp [List.intercalate]),
    List.filterMap_cons, List.filterMap_cons, Constraint.ofClause?_append hcolon,
    Constraint.ofClause?_append hcolon, hleast]
  rfl

private theorem ofText_atMost (h : ¬ ['.', '.'] <:+: high.toList) :
    Condition.ofText (trim ('<' :: '=' :: high.toList))
      = .compare .lessOrEqual (operand high.toList) :=
  @Condition.ofText_compare "<=" .lessOrEqual high.toList (by decide) h (by simp)

/-- What the two expressions compare: the bounds and the value of the record, if there is one. -/
def comparedScalars (r : Record) (key low high : String) : List Scalar :=
  operand low.toList :: operand high.toList ::
    ((r.resolve? (clauseTarget key)).map FieldValue.scalar).toList

/-- **A range agrees with its two bounds**: what it accepts they both accept, and where no integer
stands beside a decimal, what they both accept it accepts. -/
theorem range_accepts_iff (r : Record) (hkey : ',' ∉ key.toList) (hcolon : ':' ∉ key.toList)
    (hlow : ',' ∉ low.toList) (hhigh : ',' ∉ high.toList) (hdots : ¬ ['.', '.'] <:+: low.toList)
    (hlast : ¬ ['.'] <:+ low.toList) :
    ∃ range least greatest,
      Constraint.ofExpression (key ++ ":" ++ low ++ ".." ++ high) = [range] ∧
      Constraint.ofExpression (key ++ ":>=" ++ low ++ "," ++ key ++ ":<=" ++ high)
        = [least, greatest] ∧
      (range.accepts r = true → least.accepts r = true ∧ greatest.accepts r = true) ∧
      (Scalar.mixesNumbers (comparedScalars r key low high) = false →
        (range.accepts r = true ↔ least.accepts r = true ∧ greatest.accepts r = true)) := by
  refine ⟨_, _, _, ofExpression_range hkey hcolon hlow hhigh hdots hlast,
    ofExpression_bounds hkey hcolon hlow hhigh hdots, ?_⟩
  simp only [Constraint.accepts]
  by_cases hpair : ['.', '.'] <:+: high.toList
  · -- Both the range and the condition on the high bound accept nothing.
    have hpair' : ['.', '.'] <:+: '=' :: high.toList := List.infix_cons hpair
    rw [Condition.accepts_range_of_pair hpair, Condition.accepts_ofText_of_pair hpair']
    simp
  · rw [ofText_atMost hpair]
    exact ⟨Condition.accepts_bounds_of_range, fun hmixes =>
      ⟨Condition.accepts_bounds_of_range, fun ⟨hleast, hgreatest⟩ =>
        Condition.accepts_range_of_bounds hmixes hleast hgreatest⟩⟩

/-- An id between two integers, which the range accepts and so do both bounds. -/
theorem range_accepts_iff_id :
    Scalar.mixesNumbers (comparedScalars { id := 3 } "id" "2" "5") = false ∧
      ∃ range least greatest,
        Constraint.ofExpression "id:2..5" = [range] ∧
        Constraint.ofExpression "id:>=2,id:<=5" = [least, greatest] ∧
        range.accepts { id := 3 } = true ∧
        least.accepts { id := 3 } = true ∧ greatest.accepts { id := 3 } = true := by
  have hmixes : Scalar.mixesNumbers (comparedScalars { id := 3 } "id" "2" "5") = false := by
    decide
  obtain ⟨range, least, greatest, hrange, hbounds, -, hiff⟩ :=
    @range_accepts_iff "id" "2" "5" { id := 3 } (by decide) (by decide) (by decide) (by decide)
      (by decide) (by decide)
  have haccepts : range.accepts { id := 3 } = true := by
    have hall : ∀ c ∈ Constraint.ofExpression "id:2..5", c.accepts { id := 3 } = true := by decide
    exact hall range (hrange ▸ List.mem_singleton_self range)
  exact ⟨hmixes, range, least, greatest, hrange, hbounds, haccepts, (hiff hmixes).mp haccepts⟩

end Roster
