import Roster.Proofs.Number.Literal
import Roster.Proofs.Time.Reading
import Roster.Scalar

/-!
# Kinds of scalars

- **Two scalars compare** only if both have an order (`isOrdered_of_compare?`), and only if they are
  of one kind or one is an integer and the other a decimal (`sameKind_or_mixesNumbers`).
- **A written integer** is read as an integer (`ofText_integerText`).
- **A text stands for itself** if it has two points side by side (`ofText_of_pair`) or begins in a
  way that no number and no timestamp does (`ofText_of_start`).
-/

namespace Roster.Scalar

open Number Time

/-! ## Comparable kinds -/

/-- Whether an integer and a decimal stand among the scalars. -/
def mixesNumbers (scalars : List Scalar) : Bool :=
  (scalars.any fun | integer _ => true | _ => false) &&
    scalars.any fun | decimal _ => true | _ => false

theorem mixesNumbers_of_subset {scalars others : List Scalar} (hsub : scalars ⊆ others)
    (h : mixesNumbers scalars = true) : mixesNumbers others = true := by
  simp only [mixesNumbers, Bool.and_eq_true, List.any_eq_true] at h ⊢
  obtain ⟨⟨n, hn, hinteger⟩, v, hv, hdecimal⟩ := h
  exact ⟨⟨n, hsub hn, hinteger⟩, v, hsub hv, hdecimal⟩

variable {a b : Scalar} {o : Ordering}

theorem isOrdered_of_compare? (h : a.compare? b = some o) :
    a.isOrdered = true ∧ b.isOrdered = true := by
  cases a <;> cases b <;> first | exact ⟨rfl, rfl⟩ | cases h

/-- Only numbers compare with another kind. -/
theorem sameKind_or_mixesNumbers (h : a.compare? b = some o) :
    b.sameKind a = true ∨ mixesNumbers [a, b] = true := by
  cases a <;> cases b <;> first | exact .inl rfl | exact .inr rfl | cases h

/-! ## Texts that stand for themselves -/

variable {s : String}

theorem ofText_eq_text (hwhole : int64? s.toList = none) (hdecimal : binary64? s.toList = none)
    (htime : Timestamp.read? s.toList = none) : ofText s = text s := by
  simp [ofText, hwhole, hdecimal, htime]

/-- Neither a number nor a timestamp has two points. -/
theorem ofText_of_pair (h : ['.', '.'] <:+: s.toList) : ofText s = text s := by
  -- No number and no timestamp has more than one point.
  have hcount : 2 ≤ s.toList.count '.' := h.sublist.count_le '.'
  have hwhole : int64? s.toList = none := by
    refine Option.eq_none_iff_forall_ne_some.mpr fun n hn => ?_
    obtain ⟨_, hin, -⟩ := Option.map_eq_some_iff.mp hn
    have hpoint := count_point_of_integer? (Option.filter_eq_some_iff.mp hin).1
    omega
  have hdecimal : binary64? s.toList = none := by
    refine Option.eq_none_iff_forall_ne_some.mpr fun v hv => ?_
    have hpoint := count_point_of_binary64? hv
    omega
  have htime : Timestamp.read? s.toList = none := by
    refine Option.eq_none_iff_forall_ne_some.mpr fun t ht => ?_
    have hpoint := count_point_of_read? ht
    omega
  exact ofText_eq_text hwhole hdecimal htime

theorem ofText_of_start {c : Char} (hdigit : c.isDigit = false) (hmark : c ∉ ['+', '-', '.'])
    (hname : c.toLower ∉ ['n', 'i']) (h : [c] <+: s.toList) : ofText s = text s := by
  obtain ⟨cs, hcs⟩ := h
  rw [List.singleton_append] at hcs
  have hsign : c ∉ ['+', '-'] := fun hmem => hmark (List.mem_append_left ['.'] hmem)
  have htime : Timestamp.read? (c :: cs) = none := by
    refine Option.eq_none_iff_forall_ne_some.mpr fun t ht => ?_
    exact Bool.false_ne_true (hdigit.symm.trans (isDigit_of_read? ht))
  apply ofText_eq_text
  · rw [← hcs, int64?_eq_none hdigit hsign]
  · rw [← hcs, binary64?_eq_none hdigit hmark hname]
  · rw [← hcs, htime]

/-- A text that is read as a text is that text. -/
theorem eq_of_ofText_eq_text {t : String} (h : ofText s = text t) : t = s := by
  unfold ofText at h
  dsimp only at h
  split at h
  · rename_i scalar hnumber
    split at hnumber
    · obtain ⟨_, -, rfl⟩ := Option.map_eq_some_iff.mp hnumber
      cases h
    · obtain ⟨_, -, rfl⟩ := Option.map_eq_some_iff.mp hnumber
      cases h
  · split at h
    · cases h
    · exact (text.inj h).symm

/-! ## Integers -/

/-- What is written for a word is read as that word, the least one included. -/
theorem ofText_integerText (n : Int64) :
    ofText (String.ofList (integerText n.toInt)) = integer n := by
  have hpoint : (integerText n.toInt).contains '.' = false := by
    rw [Bool.eq_false_iff, ne_eq, List.contains_iff_mem]
    exact notMem_integerText (by decide) _
  simp only [ofText, String.toList_ofList, hpoint, int64?_integerText]
  rfl

end Roster.Scalar
