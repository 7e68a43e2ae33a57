import Roster.Filter.Basic
import Roster.Proofs.Scalar.Kinds

/-!
# When a value meets a condition

Absence, a text and values of two kinds are told apart here once, so that the laws of the conditions
only speak of values that compare.

- An **ordering operator** accepts a value that compares with the operand, with an outcome that the
  operator admits (`accepts_compare_iff`). The comparison of lowercase texts never lets one hold.
- A **range** accepts a value of the kind of both bounds that lies between them
  (`accepts_range_iff`).
- What a range accepts, both operators accept (`accepts_bounds_of_range`), and conversely unless an
  integer meets a decimal (`accepts_range_of_bounds`).
-/

namespace Roster

variable {value : Option FieldValue} {operand low high t : Scalar} {op : Operator} {o : Ordering}

namespace Operator

/-- The operators other than equality and its negation. -/
def IsOrdering (op : Operator) : Prop :=
  op ≠ .equal ∧ op ≠ .notEqual

theorem isOrdering_greaterOrEqual : greaterOrEqual.IsOrdering := by
  constructor <;> decide

theorem isOrdering_lessOrEqual : lessOrEqual.IsOrdering := by
  constructor <;> decide

theorem IsOrdering.holds_eq (hop : op.IsOrdering) (target operand : Scalar) :
    op.holds target operand = op.admits (target.compare? operand) := by
  obtain ⟨heq, hne⟩ := hop
  cases op <;> first | contradiction | rfl

theorem IsOrdering.holdsOnText_eq (hop : op.IsOrdering) (target operand : String) :
    op.holdsOnText target operand = false := by
  obtain ⟨heq, hne⟩ := hop
  cases op <;> first | contradiction | rfl

/-- No operator admits two values that do not compare. -/
theorem exists_of_admits {outcome : Option Ordering} (h : op.admits outcome = true) :
    ∃ o, outcome = some o := by
  cases outcome with
  | none => cases op <;> cases h
  | some o => exact ⟨o, rfl⟩

end Operator

namespace Condition

theorem accepts_compare_iff (hop : op.IsOrdering) :
    (compare op operand).accepts value = true ↔
      ∃ t, value.map FieldValue.scalar = some t ∧ op.admits (t.compare? operand) = true := by
  rw [accepts]
  constructor
  · intro h
    split at h
    · rename_i t ht
      rw [hop.holds_eq] at h
      exact ⟨t, (Option.filter_eq_some_iff.mp ht).1, h⟩
    · rw [hop.holdsOnText_eq] at h
      cases h
  · rintro ⟨t, ht, h⟩
    obtain ⟨o, ho⟩ := Operator.exists_of_admits h
    obtain ⟨htarget, hoperand⟩ := Scalar.isOrdered_of_compare? ho
    rw [ht, Option.filter_some, htarget, hoperand]
    rw [← hop.holds_eq] at h
    exact h

theorem accepts_range_iff :
    (range low high).accepts value = true ↔
      ∃ t, value.map FieldValue.scalar = some t ∧ low.sameKind t = true ∧ high.sameKind t = true ∧
        Operator.greaterOrEqual.admits (t.compare? low) = true ∧
        Operator.lessOrEqual.admits (t.compare? high) = true := by
  rw [accepts]
  constructor
  · intro h
    split at h
    · rename_i t ht
      simp only [Bool.and_eq_true] at h
      obtain ⟨⟨⟨⟨-, hlow⟩, hhigh⟩, hge⟩, hle⟩ := h
      exact ⟨t, ht, hlow, hhigh, hge, hle⟩
    · cases h
  · rintro ⟨t, ht, hlow, hhigh, hge, hle⟩
    obtain ⟨o, ho⟩ := Operator.exists_of_admits hge
    have hordered := (Scalar.isOrdered_of_compare? ho).1
    have hholds : Operator.greaterOrEqual.holds t low = true := hge
    have hholds' : Operator.lessOrEqual.holds t high = true := hle
    rw [ht]
    simp only [hordered, hlow, hhigh, hholds, hholds', Bool.and_self]

/-- A text is no bound of a range that accepts something. -/
theorem isOrdered_of_accepts_range (h : (range low high).accepts value = true) :
    low.isOrdered = true ∧ high.isOrdered = true := by
  obtain ⟨t, -, -, -, hge, hle⟩ := accepts_range_iff.mp h
  obtain ⟨_, hlow⟩ := Operator.exists_of_admits hge
  obtain ⟨_, hhigh⟩ := Operator.exists_of_admits hle
  exact ⟨(Scalar.isOrdered_of_compare? hlow).2, (Scalar.isOrdered_of_compare? hhigh).2⟩

/-- What a range accepts lies on the right side of each bound. -/
theorem accepts_bounds_of_range (h : (range low high).accepts value = true) :
    (compare .greaterOrEqual low).accepts value = true ∧
      (compare .lessOrEqual high).accepts value = true := by
  obtain ⟨t, ht, -, -, hge, hle⟩ := accepts_range_iff.mp h
  exact ⟨(accepts_compare_iff Operator.isOrdering_greaterOrEqual).mpr ⟨t, ht, hge⟩,
    (accepts_compare_iff Operator.isOrdering_lessOrEqual).mpr ⟨t, ht, hle⟩⟩

/-- A range asks for one kind, which two operators imply only if no integer meets a decimal. -/
theorem accepts_range_of_bounds
    (hmixes : Scalar.mixesNumbers (low :: high :: (value.map FieldValue.scalar).toList) = false)
    (hleast : (compare .greaterOrEqual low).accepts value = true)
    (hgreatest : (compare .lessOrEqual high).accepts value = true) :
    (range low high).accepts value = true := by
  obtain ⟨t, ht, hge⟩ := (accepts_compare_iff Operator.isOrdering_greaterOrEqual).mp hleast
  obtain ⟨t', ht', hle⟩ := (accepts_compare_iff Operator.isOrdering_lessOrEqual).mp hgreatest
  obtain rfl : t = t' := Option.some.inj (ht.symm.trans ht')
  -- Comparable values are of one kind, or numbers of two, which the hypothesis rules out.
  have hkind {bound : Scalar} {o : Ordering} (hbound : bound ∈ [low, high])
      (ho : t.compare? bound = some o) : bound.sameKind t = true := by
    refine (Scalar.sameKind_or_mixesNumbers ho).resolve_right fun hpair => ?_
    refine Bool.false_ne_true (hmixes.symm.trans (Scalar.mixesNumbers_of_subset ?_ hpair))
    rw [ht]
    simp only [List.mem_cons, List.not_mem_nil, or_false] at hbound
    rcases hbound with rfl | rfl <;> simp
  obtain ⟨_, hlow⟩ := Operator.exists_of_admits hge
  obtain ⟨_, hhigh⟩ := Operator.exists_of_admits hle
  exact accepts_range_iff.mpr
    ⟨t, ht, hkind (by simp) hlow, hkind (by simp) hhigh, hge, hle⟩

end Condition

end Roster
