import Roster.Proofs.Filter.Equality
import Roster.Proofs.Scalar.Display

/-!
# The bare clause beside equality

What `==` accepts, the clause without an operator accepts as well (`likeness_of_comparison_iff`), with
one exception. Where one of the value and the operand is a text, `==` compares the value with what is
displayed for the operand. If the operand has an order, the bare clause does not accept such a value; but
then a value written like that has an order too, so `==` has compared the two themselves. Only an operand
that is not read back from what is displayed for it, a decimal beyond the words of 64 bits
(`Scalar.IsVast`), is equal to a text.
-/

namespace Roster

open Text

namespace Condition

variable {v : FieldValue} {a : Scalar}

/-- What is displayed for most scalars is read as a scalar with an order, in whichever letter case. -/
private theorem isVast_of_same_text (hproper : a.IsProper) (hnan : a ≠ .decimal .nan)
    (ha : a.isOrdered = true) (hv : v.scalar.isOrdered = false)
    (hsame : lowercase v.display = lowercase a.display) : a.IsVast := by
  by_contra hvast
  obtain ⟨hcaseless, hordered⟩ := Scalar.isOrdered_display hproper hnan ha hvast
  have hdisplay : v.display = a.display := by
    rw [lowercase, lowercase, lower_of_isCaseless hcaseless] at hsame
    exact String.toList_inj.mp (eq_of_lower_eq hcaseless hsame)
  rw [← hdisplay, v.ofText_display, hv] at hordered
  cases hordered

/-- A value without an order is no operand that has one. -/
private theorem accepts_like_eq_false (ha : a.isOrdered = true) (hv : v.scalar.isOrdered = false) :
    (like a).accepts (some v) = false := by
  rw [accepts_like_of_isOrdered ha]
  cases hscalar : v.scalar with
  | text s =>
    cases a with
    | text t => cases ha
    | _ => rfl
  | _ =>
    rw [hscalar] at hv
    cases hv

theorem like_of_equal_iff (hproper : a.IsProper) (hnan : a ≠ .decimal .nan) :
    ((compare .equal a).accepts (some v) = true → (like a).accepts (some v) = true) ↔
      ¬ (a.IsVast ∧ lowercase v.display = lowercase a.display) := by
  -- An equality compares texts unless both sides are ordered, a bare clause unless the operand is.
  -- So the two can differ only where the operand is ordered and the value is not.
  cases ha : a.isOrdered with
  | false =>
    have hvast : ¬ a.IsVast := by
      cases a with
      | text s => exact id
      | _ => cases ha
    rw [accepts_equal_of_text (by rw [ha, Bool.and_false]), accepts_like_of_text ha, beq_iff_eq]
    exact iff_of_true (fun hsame => hsame ▸ List.infix_rfl) fun hboth => hvast hboth.1
  | true =>
    cases hv : v.scalar.isOrdered with
    | true =>
      rw [accepts_equal_of_isOrdered hv ha, accepts_like_of_isOrdered ha]
      refine iff_of_true id fun ⟨hvast, hsame⟩ => ?_
      have htext := Scalar.not_isOrdered_of_isVast hproper hvast hsame
      rw [v.ofText_display, hv] at htext
      cases htext
    | false =>
      rw [accepts_equal_of_text (by rw [hv, Bool.false_and]), accepts_like_eq_false ha hv,
        beq_iff_eq]
      constructor
      · rintro h ⟨-, hsame⟩
        cases h hsame
      · intro h hsame
        exact absurd ⟨isVast_of_same_text hproper hnan ha hv hsame, hsame⟩ h

end Condition

/-- **Equality is at least as strict as the bare clause**: the record that `==` accepts is accepted
without an operator, unless the operand is a decimal beyond the words of 64 bits and the value is what
is displayed for it. -/
theorem likeness_of_comparison_iff (r : Record) {key value : String} {v : FieldValue}
    (h : r.resolve? key = some v) (htrim : trim value.toList = value.toList)
    (hcomma : ',' ∉ value.toList) (hdots : ¬ ['.', '.'] <:+: value.toList)
    (hstart : ∀ start ∈ [['>'], ['<'], ['='], ['!', '=']], ¬ start <+: value.toList) :
    ∃ equal like, Constraint.ofExpression (key ++ ":==" ++ value) = [equal] ∧
      Constraint.ofExpression (key ++ ":" ++ value) = [like] ∧
      ((equal.accepts r = true → like.accepts r = true) ↔
        ¬ ((Scalar.ofText value).IsVast ∧
          lowercase v.display = lowercase (Scalar.ofText value).display)) := by
  obtain ⟨c, hname, -⟩ := Record.resolve?_eq_some_iff.mp h
  obtain ⟨hkeyComma, hcolon, htarget⟩ := plain_of_isName hname
  have hoperand : operand value.toList = .ofText value := by
    rw [operand, htrim, String.ofList_toList]
  refine ⟨comparison key .equal value, likeness key value, ?_, ?_, ?_⟩
  · exact ofExpression_comparison (by decide : ("==", Operator.equal) ∈ _) hkeyComma hcolon hcomma
      hdots (by simp) (by simp)
  · exact ofExpression_likeness hkeyComma hcolon hcomma hdots (by rwa [htrim]) (by simp)
  · rw [Constraint.accepts, Constraint.accepts, comparison, likeness, htarget, h, hoperand]
    exact Condition.like_of_equal_iff (Scalar.isProper_ofText value) (Scalar.ofText_ne_nan value)

/-- An integer and a decimal of the same value, which are written differently. -/
theorem likeness_of_comparison_iff_phone :
    let r : Record := { id := 1, phone := "007" }
    r.resolve? "phone" = some (.text "007") ∧ trim "7.0".toList = "7.0".toList ∧
      ',' ∉ "7.0".toList ∧ ¬ ['.', '.'] <:+: "7.0".toList ∧
      (∀ start ∈ [['>'], ['<'], ['='], ['!', '=']], ¬ start <+: "7.0".toList) ∧
      ∃ equal like, Constraint.ofExpression ("phone" ++ ":==" ++ "7.0") = [equal] ∧
        Constraint.ofExpression ("phone" ++ ":" ++ "7.0") = [like] ∧
        equal.accepts r = true ∧ like.accepts r = true := by
  intro r
  have hresolve : r.resolve? "phone" = some (.text "007") := by decide
  have htrim : trim "7.0".toList = "7.0".toList := by decide
  have hcomma : ',' ∉ "7.0".toList := by decide
  have hdots : ¬ ['.', '.'] <:+: "7.0".toList := by decide
  have hstart : ∀ start ∈ [['>'], ['<'], ['='], ['!', '=']], ¬ start <+: "7.0".toList := by decide
  obtain ⟨equal, like, hequal, hlike, hiff⟩ :=
    likeness_of_comparison_iff r hresolve htrim hcomma hdots hstart
  have hall : ∀ c ∈ Constraint.ofExpression ("phone" ++ ":==" ++ "7.0"), c.accepts r = true := by
    decide +kernel
  have haccepts := hall equal (hequal ▸ List.mem_singleton_self equal)
  have hother : lowercase "007" ≠ lowercase (Scalar.ofText "7.0").display := by decide +kernel
  exact ⟨hresolve, htrim, hcomma, hdots, hstart, equal, like, hequal, hlike, haccepts,
    hiff.mpr (fun hboth => hother hboth.2) haccepts⟩

/-- A decimal beyond the words of 64 bits, and the text that is displayed for it. -/
theorem likeness_of_comparison_vast :
    (Constraint.ofExpression
        "phone:==100000000000000000000.0,phone:100000000000000000000.0").map
      (·.accepts { id := 1, phone := "100000000000000000000" }) = [true, false] := by
  decide +kernel

end Roster
