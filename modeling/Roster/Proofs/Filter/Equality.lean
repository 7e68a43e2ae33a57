import Roster.Proofs.Column.Resolution
import Roster.Proofs.Filter.Operators

/-!
# Asking for a value

A clause with `==` and a clause without an operator both ask for a value. If the value of the record
and the operand have an order, both compare the two; otherwise `==` asks for the same text and the bare
clause for a part of it (or, if the operand has an order, for nothing).

- **The bare clause** (`likeness`) has its law beside those of the operators (`ofExpression_likeness`).
- **A record is found by its own value** (`accepts_ownValue`): what is written for a value is read as
  its scalar (`ofText_display`), and a scalar is equal to itself.
-/

namespace Roster

open Text

/-! ## Values and what is written for them -/

namespace FieldValue

variable {v : FieldValue}

theorem ofText_display (v : FieldValue) : Scalar.ofText v.display = v.scalar := by
  cases v with
  | integer n => exact Scalar.ofText_integerText n
  | text s => rfl

/-- A text that stands for itself is displayed as it is. -/
theorem display_scalar (h : v.scalar.isOrdered = false) : v.scalar.display = v.display := by
  match hscalar : v.scalar with
  | .text t => exact Scalar.eq_of_ofText_eq_text (v.ofText_display.trans hscalar)
  | .integer _ | .decimal _ | .time _ =>
    rw [hscalar] at h
    cases h

end FieldValue

/-! ## The two conditions -/

namespace Condition

variable {v : FieldValue} {operand : Scalar}

theorem accepts_equal_of_isOrdered (hv : v.scalar.isOrdered = true)
    (hoperand : operand.isOrdered = true) :
    (compare .equal operand).accepts (some v) = v.scalar.equals operand := by
  simp [accepts, Option.filter_some, hv, hoperand, Operator.holds]

/-- Where one of the two is a text, the texts are compared. -/
theorem accepts_equal_of_text (h : (v.scalar.isOrdered && operand.isOrdered) = false) :
    (compare .equal operand).accepts (some v)
      = (lowercase v.display == lowercase operand.display) := by
  simp [accepts, Option.filter_some, h, Operator.holdsOnText]

theorem accepts_like_of_isOrdered (h : operand.isOrdered = true) :
    (like operand).accepts (some v) = v.scalar.equals operand := by
  simp [accepts, h]

theorem accepts_like_of_text (h : operand.isOrdered = false) :
    (like operand).accepts (some v) = true ↔ lowercase operand.display <:+: lowercase v.display := by
  simp [accepts, h, occursIn_iff]

end Condition

/-! ## The two clauses -/

variable {key value : String} {r : Record} {v : FieldValue}

/-- The names of columns stand before a colon as they are. -/
theorem plain_of_isName {c : Column} (h : key = c.path ∨ key = c.flatKey) :
    ',' ∉ key.toList ∧ ':' ∉ key.toList ∧ clauseTarget key = key := by
  rcases h with rfl | rfl <;> cases c <;> decide

/-- The constraint that asks for a value without an operator. -/
def likeness (key value : String) : Constraint :=
  ⟨clauseTarget key, .like (operand value.toList)⟩

theorem ofExpression_likeness {expression : String} (hkey : ',' ∉ key.toList)
    (hcolon : ':' ∉ key.toList) (hvalue : ',' ∉ value.toList)
    (hdots : ¬ ['.', '.'] <:+: value.toList)
    (hstart : ∀ start ∈ [['>'], ['<'], ['='], ['!', '=']], ¬ start <+: trim value.toList)
    (h : expression.toList = key.toList ++ ':' :: value.toList) :
    Constraint.ofExpression expression = [likeness key value] := by
  rw [ofExpression_clause hkey hcolon hvalue h, Condition.ofText_like hdots hstart]
  rfl

/-! ## A record is found by its own value -/

theorem comparison_accepts_display (h : r.resolve? (clauseTarget key) = some v)
    (htrim : trim v.display.toList = v.display.toList) :
    (comparison key .equal v.display).accepts r = true := by
  have hoperand : operand v.display.toList = v.scalar := by
    rw [operand, htrim, String.ofList_toList, v.ofText_display]
  rw [Constraint.accepts, comparison, h, hoperand]
  by_cases hordered : v.scalar.isOrdered = true
  · rw [Condition.accepts_equal_of_isOrdered hordered hordered]
    exact Scalar.equals_self v.scalar_ne_nan
  · have htext : v.scalar.isOrdered = false := Bool.eq_false_iff.mpr hordered
    rw [Condition.accepts_equal_of_text (by rw [htext]; rfl), FieldValue.display_scalar htext]
    exact beq_self_eq_true _

theorem likeness_accepts_display (h : r.resolve? (clauseTarget key) = some v)
    (htrim : trim v.display.toList = v.display.toList) :
    (likeness key v.display).accepts r = true := by
  have hoperand : operand v.display.toList = v.scalar := by
    rw [operand, htrim, String.ofList_toList, v.ofText_display]
  rw [Constraint.accepts, likeness, h, hoperand]
  by_cases hordered : v.scalar.isOrdered = true
  · rw [Condition.accepts_like_of_isOrdered hordered]
    exact Scalar.equals_self v.scalar_ne_nan
  · have htext : v.scalar.isOrdered = false := Bool.eq_false_iff.mpr hordered
    have hsame := congrArg lowercase (FieldValue.display_scalar htext)
    exact (Condition.accepts_like_of_text htext).mpr (hsame ▸ List.infix_rfl)

/-- **A record is found by its own value.** Under either name of a column the text of the value accepts
the record after `==` and not after `!=`; alone it accepts the record too, unless it begins with an
operator. -/
theorem accepts_ownValue (r : Record) (c : Column) (h : r.value? c = some v)
    (htrim : trim v.display.toList = v.display.toList) (hcomma : ',' ∉ v.display.toList)
    (hdots : ¬ ['.', '.'] <:+: v.display.toList) :
    ∀ key ∈ [c.path, c.flatKey],
      (∃ equal, Constraint.ofExpression (key ++ ":==" ++ v.display) = [equal] ∧
        equal.accepts r = true) ∧
      (∃ notEqual, Constraint.ofExpression (key ++ ":!=" ++ v.display) = [notEqual] ∧
        notEqual.accepts r = false) ∧
      ((∀ start ∈ [['>'], ['<'], ['='], ['!', '=']], ¬ start <+: v.display.toList) →
        ∃ like, Constraint.ofExpression (key ++ ":" ++ v.display) = [like] ∧
          like.accepts r = true) := by
  intro key hkey
  have hname : key = c.path ∨ key = c.flatKey := by simpa using hkey
  obtain ⟨hkeyComma, hcolon, htarget⟩ := plain_of_isName hname
  have hresolve : r.resolve? (clauseTarget key) = some v := by
    rw [htarget]
    exact Record.resolve?_eq_some_iff.mpr ⟨c, hname, h⟩
  have hequal := comparison_accepts_display hresolve htrim
  refine ⟨⟨comparison key .equal v.display, ?_, hequal⟩,
    ⟨comparison key .notEqual v.display, ?_, ?_⟩,
    fun hstart => ⟨likeness key v.display, ?_, likeness_accepts_display hresolve htrim⟩⟩
  · exact ofExpression_comparison (by decide : ("==", Operator.equal) ∈ _) hkeyComma hcolon hcomma
      hdots (by simp) (by simp)
  · exact ofExpression_comparison (by decide : ("!=", Operator.notEqual) ∈ _) hkeyComma hcolon hcomma
      hdots (by simp) (by simp)
  · rw [comparison_notEqual_accepts, hequal, Bool.not_true]
  · exact ofExpression_likeness hkeyComma hcolon hcomma hdots (by rwa [htrim]) (by simp)

/-- A decimal with more digits than it is displayed with, under the flat key. -/
theorem accepts_ownValue_latitude :
    let r : Record := { id := 1, address := some { geo := some { lat := "-037.31590" } } }
    r.value? .lat = some (.text "-037.31590") ∧
      trim "-037.31590".toList = "-037.31590".toList ∧ ',' ∉ "-037.31590".toList ∧
      ¬ ['.', '.'] <:+: "-037.31590".toList ∧
      ∃ like, Constraint.ofExpression "lat:-037.31590" = [like] ∧ like.accepts r = true := by
  intro r
  have hvalue : r.value? .lat = some (.text "-037.31590") := rfl
  have htrim : trim "-037.31590".toList = "-037.31590".toList := by decide
  have hcomma : ',' ∉ "-037.31590".toList := by decide
  have hdots : ¬ ['.', '.'] <:+: "-037.31590".toList := cut?_eq_none_iff.mp (by decide)
  have hown := accepts_ownValue r .lat hvalue htrim hcomma hdots "lat" (by decide)
  exact ⟨hvalue, htrim, hcomma, hdots, hown.2.2 (by decide)⟩

end Roster
