import Roster.Proofs.Scalar.Kinds

/-!
# Scalars that compare

Two scalars of comparable kinds have an outcome, and no others do (`compare?_isSome_iff`); a scalar is
equal to itself (`equals_self`). The datum that is no number would be an exception to both, but no text
denotes it (`ofText_ne_nan`).
-/

namespace Roster

open Number Time

namespace Scalar

/-- Whether a scalar is an integer or a decimal. -/
def isNumber : Scalar → Bool
  | integer _ | decimal _ => true
  | _ => false

/-- Whether two scalars are of kinds that compare: two numbers, or two timestamps that both have an
offset or both have none. -/
def isComparable : Scalar → Scalar → Bool
  | time s, time t => s.isAware == t.isAware
  | a, b => a.isNumber && b.isNumber

/-- A text with a point in it denotes a number or none at all; one without is no decimal. -/
theorem ofText_ne_nan (s : String) : ofText s ≠ decimal .nan := by
  unfold ofText
  dsimp only
  split
  · rename_i scalar hnumber
    split at hnumber
    · rename_i hpoint
      obtain ⟨v, hv, rfl⟩ := Option.map_eq_some_iff.mp hnumber
      rintro ⟨⟩
      exact binary64?_ne_nan_of_point (List.contains_iff_mem.mp hpoint) hv
    · obtain ⟨n, -, rfl⟩ := Option.map_eq_some_iff.mp hnumber
      simp
  · split <;> simp

/-- Numbers compare with each other, timestamps with those of their sort, and nothing else does. -/
theorem compare?_isSome_iff {a b : Scalar} (ha : a ≠ decimal .nan) (hb : b ≠ decimal .nan) :
    (a.compare? b).isSome = true ↔ a.isComparable b = true := by
  have hdecimal {v : Binary64} (h : decimal v ≠ decimal .nan) : v ≠ .nan := mt (congrArg decimal) h
  have hround (n : Int64) : Binary64.ofInt n.toInt ≠ .nan := Binary64.ofInt_ne_nan _
  cases a with
  | integer m =>
    cases b with
    | integer n => exact iff_of_true rfl rfl
    | decimal w => exact iff_of_true (Binary64.compare?_isSome (hround m) (hdecimal hb)) rfl
    | _ => exact iff_of_false Bool.false_ne_true Bool.false_ne_true
  | decimal v =>
    cases b with
    | integer n => exact iff_of_true (Binary64.compare?_isSome (hdecimal ha) (hround n)) rfl
    | decimal w => exact iff_of_true (Binary64.compare?_isSome (hdecimal ha) (hdecimal hb)) rfl
    | _ => exact iff_of_false Bool.false_ne_true Bool.false_ne_true
  | time s =>
    cases b with
    | time t => rw [compare?, Timestamp.compare?_isSome_iff, isComparable, beq_iff_eq]
    | _ => exact iff_of_false Bool.false_ne_true Bool.false_ne_true
  | text s => cases b <;> exact iff_of_false Bool.false_ne_true Bool.false_ne_true

theorem isComparable_of_isNumber {a b : Scalar} (ha : a.isNumber = true) (hb : b.isNumber = true) :
    a.isComparable b = true := by
  cases a with
  | integer _ | decimal _ => exact hb
  | time _ | text _ => cases ha

/-! ## Equality -/

variable {a : Scalar}

theorem compare?_self (hordered : a.isOrdered = true) (hnan : a ≠ decimal .nan) :
    a.compare? a = some .eq := by
  cases a with
  | integer n => exact congrArg some (Binary64.order_self _)
  | decimal v =>
    cases v with
    | finite s m e => exact congrArg some (Binary64.order_self _)
    | infinite s => simp [compare?, Binary64.compare?]
    | nan => exact absurd rfl hnan
  | time t => cases t <;> exact congrArg some (Binary64.order_self _)
  | text s => cases hordered

theorem equals_self (hnan : a ≠ decimal .nan) : a.equals a = true := by
  cases a with
  | text s => simp [equals]
  | _ => simp only [equals, compare?_self rfl hnan, beq_self_eq_true]

end Scalar

end Roster
