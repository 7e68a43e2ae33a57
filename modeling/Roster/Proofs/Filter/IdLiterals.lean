import Roster.Proofs.Filter.Equality
import Roster.Proofs.Query.Lookup
import Roster.Proofs.Scalar.IntegerLiteral

/-!
# Filters for ids by integer literals

What the clauses for an id accept whose operand is the literal of an integer, of any length.

- **A word of 64 bits** is read as an integer, and all conditions on an id compare integers.
- **Any other literal** stands for itself. No id is written that way, so `==` and `!=` still answer
  right; but no ordering operator accepts an id, however small or large the literal, and the bare clause
  asks for ids whose text contains the literal. Only the least id contains one of them: its magnitude.

`idLiteral_accepts` says so for each of the clauses.
-/

namespace Roster

open Number Text Time

private theorem lowercase_idText (n : Int64) : lowercase (idText n) = integerText n.toInt := by
  rw [lowercase, idText, String.toList_ofList]
  exact lower_of_isCaseless fun _ => isCaseless_of_mem_integerText

namespace IntegerLiteral

/-! ## Ids and literals that are no words -/

variable {l : IntegerLiteral} {n : Int64}

private theorem lowercase_text (l : IntegerLiteral) : lowercase l.text = l.text.toList :=
  lower_of_isCaseless fun _ => l.isCaseless_of_mem_text

private theorem value_ne_toInt (h : ¬ l.IsWord) : n.toInt ≠ l.value := by
  intro heq
  rw [IsWord, ← heq] at h
  exact h ⟨n.le_toInt, n.toInt_lt⟩

/-- Two texts of different integers are different. -/
private theorem toList_text_ne_integerText (h : ¬ l.IsWord) : l.text.toList ≠ integerText n.toInt := by
  intro heq
  have hread := l.integer?_text
  rw [heq, integer?_integerText, Option.some.injEq] at hread
  exact value_ne_toInt h hread

/-- The literal that stands in the text of the least id. -/
def leastMagnitude : String :=
  "9223372036854775808"

theorem value_of_text (h : l.text = leastMagnitude) : l.value = 2 ^ 63 := by
  have hread : integer? leastMagnitude.toList = some (2 ^ 63) := by decide
  rw [← h, integer?_text, Option.some.injEq] at hread
  exact hread

private theorem digits_part (h : l.text.toList <:+: integerText n.toInt) :
    l.digits <:+: naturalText n.toInt.natAbs := by
  have hsuffix : l.digits <:+ l.text.toList := by
    rw [toList_text]
    exact List.suffix_append _ _
  exact infix_naturalText_of_digits l.digits_ne_nil l.isDigit (hsuffix.isInfix.trans h)

/-- No plus sign is written, and after a minus sign stands a word. -/
private theorem sign_eq_nil (h : ¬ l.IsWord) (hpart : l.text.toList <:+: integerText n.toInt) :
    l.sign = [] := by
  have hlow : -2 ^ 63 ≤ n.toInt := n.le_toInt
  have hhigh : n.toInt < 2 ^ 63 := n.toInt_lt
  have hmagnitude : l.magnitude ≤ n.toInt.natAbs := le_of_infix_naturalText (digits_part hpart)
  rcases l.sign_cases with heq | heq | heq
  · exact heq
  · have hplus : '+' ∈ l.text.toList := by simp [toList_text, heq]
    exact absurd (hpart.subset hplus) (notMem_integerText (by decide) _)
  · rw [IsWord, value, if_pos heq] at h
    omega

/-- A literal in the text of an id is the id without its sign. -/
theorem text_infix_iff (h : ¬ l.IsWord) :
    l.text.toList <:+: integerText n.toInt ↔ n = Int64.minValue ∧ l.text = leastMagnitude := by
  have hlow : -2 ^ 63 ≤ n.toInt := n.le_toInt
  have hhigh : n.toInt < 2 ^ 63 := n.toInt_lt
  constructor
  · intro hpart
    have hdigits := digits_part hpart
    have hmagnitude : l.magnitude ≤ n.toInt.natAbs := le_of_infix_naturalText hdigits
    have hplain : l.sign = [] := sign_eq_nil h hpart
    rw [IsWord, value, hplain, if_neg (by decide)] at h
    -- A literal that is no word and has no sign is from `2 ^ 63` on, and of all ids only the least
    -- one has digits for that.
    have hid : n.toInt = -2 ^ 63 := by omega
    have hall : l.digits = naturalText (2 ^ 63) := by
      have hsame : n.toInt.natAbs = 2 ^ 63 := by omega
      rw [hsame] at hdigits
      exact eq_of_infix_naturalText l.digits_ne_nil hdigits (by rw [← magnitude]; omega)
    refine ⟨Int64.toInt_inj.mp hid, ?_⟩
    rw [text, hplain, hall]
    decide
  · rintro ⟨rfl, htext⟩
    rw [htext]
    exact ⟨['-'], [], by decide⟩

end IntegerLiteral

/-! ## The seven clauses -/

/-- The relation of integers that an operator stands for. -/
def Operator.Relates : Operator → Int → Int → Prop
  | .equal, a, b => a = b
  | .notEqual, a, b => a ≠ b
  | .greater, a, b => b < a
  | .greaterOrEqual, a, b => b ≤ a
  | .less, a, b => a < b
  | .lessOrEqual, a, b => a ≤ b

instance (op : Operator) (a b : Int) : Decidable (op.Relates a b) :=
  match op with
  | .equal => inferInstanceAs (Decidable (a = b))
  | .notEqual => inferInstanceAs (Decidable (a ≠ b))
  | .greater => inferInstanceAs (Decidable (b < a))
  | .greaterOrEqual => inferInstanceAs (Decidable (b ≤ a))
  | .less => inferInstanceAs (Decidable (a < b))
  | .lessOrEqual => inferInstanceAs (Decidable (a ≤ b))

theorem Operator.isMetBy_order {op : Operator} {a b : Int} :
    op.isMetBy (order a b) = true ↔ op.Relates a b := by
  unfold order
  split
  · cases op <;> simp [isMetBy, Relates] <;> omega
  · split <;> cases op <;> simp [isMetBy, Relates] <;> omega

variable {l : IntegerLiteral} {r : Record} {op : Operator}

theorem operand_text (l : IntegerLiteral) : operand l.text.toList = .ofText l.text := by
  rw [operand, l.trim_text, String.ofList_toList]

theorem resolve?_clauseTarget_id (r : Record) :
    r.resolve? (clauseTarget "id") = some (.integer r.id) := by
  have htarget : clauseTarget "id" = "id" := by decide
  rw [htarget, resolve?_id]

theorem accepts_comparison_of_isWord (h : l.IsWord) :
    (comparison "id" op l.text).accepts r = true ↔ op.Relates r.id.toInt l.value := by
  have hcompare : (Scalar.integer r.id).compare? (operand l.text.toList)
      = some (order r.id.toInt l.value) := by
    rw [operand_text, l.ofText_of_isWord h, Scalar.compare?, Int64.toInt_ofInt_of_le h.1 h.2]
  have haccepts : (comparison "id" op l.text).accepts r = op.isMetBy (order r.id.toInt l.value) := by
    rw [Constraint.accepts, comparison, resolve?_clauseTarget_id]
    exact Condition.accepts_compare_of_compare? rfl hcompare
  rw [haccepts, Operator.isMetBy_order]

theorem accepts_equal_of_not_isWord (h : ¬ l.IsWord) :
    (comparison "id" .equal l.text).accepts r = false := by
  have htexts : (comparison "id" .equal l.text).accepts r
      = (lowercase (idText r.id) == lowercase l.text) := by
    rw [Constraint.accepts, comparison, resolve?_clauseTarget_id, operand_text,
      l.ofText_of_not_isWord h]
    exact Condition.accepts_equal_of_text rfl
  rw [htexts, lowercase_idText, l.lowercase_text, beq_eq_false_iff_ne]
  exact (IntegerLiteral.toList_text_ne_integerText h).symm

/-- What an operator answers on an id. -/
theorem accepts_comparison_iff :
    (comparison "id" op l.text).accepts r = true ↔
      op.Relates r.id.toInt l.value ∧ (op.IsOrdering → l.IsWord) := by
  by_cases h : l.IsWord
  · rw [accepts_comparison_of_isWord h]
    exact (and_iff_left fun _ => h).symm
  · -- A literal that is no word of 64 bits is a text: no id equals it, and none is ordered against it.
    have hne : r.id.toInt ≠ l.value := IntegerLiteral.value_ne_toInt h
    by_cases hop : op.IsOrdering
    · have hcomparable : ¬ IsComparableAt r "id" l.text := by
        rintro ⟨t, ht, hcomparable⟩
        rw [targetScalar?, resolve?_clauseTarget_id] at ht
        obtain rfl := Option.some.inj ht
        rw [operand_text, l.ofText_of_not_isWord h] at hcomparable
        cases hcomparable
      rw [comparison_accepts_eq_false hop hcomparable]
      exact iff_of_false Bool.false_ne_true fun hboth => h (hboth.2 hop)
    · cases op with
      | equal =>
        rw [accepts_equal_of_not_isWord h]
        exact iff_of_false Bool.false_ne_true fun hboth => hne hboth.1
      | notEqual =>
        rw [comparison_notEqual_accepts, accepts_equal_of_not_isWord h]
        exact iff_of_true rfl ⟨hne, fun hop' => absurd hop' hop⟩
      | _ => exact absurd ⟨by decide, by decide⟩ hop

theorem accepts_likeness_iff :
    (likeness "id" l.text).accepts r = true ↔
      r.id.toInt = l.value ∨
        r.id = Int64.minValue ∧ l.text = IntegerLiteral.leastMagnitude := by
  by_cases h : l.IsWord
  · have hlike : (likeness "id" l.text).accepts r
        = (comparison "id" .equal l.text).accepts r := by
      rw [Constraint.accepts, Constraint.accepts, likeness, comparison, resolve?_clauseTarget_id,
        operand_text, l.ofText_of_isWord h]
      exact (Condition.accepts_like_of_isOrdered rfl).trans
        (Condition.accepts_equal_of_isOrdered rfl rfl).symm
    rw [hlike, accepts_comparison_of_isWord h]
    refine (or_iff_left ?_).symm
    rintro ⟨-, htext⟩
    have hbound := h.2
    rw [IntegerLiteral.value_of_text htext] at hbound
    exact absurd hbound (by decide)
  · have hne : r.id.toInt ≠ l.value := IntegerLiteral.value_ne_toInt h
    -- Here the clause looks for the literal in the text of the id.
    have hlike : (likeness "id" l.text).accepts r = true ↔
        l.text.toList <:+: integerText r.id.toInt := by
      rw [Constraint.accepts, likeness, resolve?_clauseTarget_id, operand_text,
        l.ofText_of_not_isWord h, ← lowercase_idText, ← l.lowercase_text]
      exact Condition.accepts_like_of_text rfl
    rw [hlike, IntegerLiteral.text_infix_iff h, or_iff_right hne]

/-- **Ids are compared with integer literals by value**, with the six operators and as a bare clause,
whatever the length of the literal, except that no ordering operator accepts an id if the literal is no
word of 64 bits, and that the bare clause finds the least id by its magnitude. -/
theorem idLiteral_accepts (r : Record) (l : IntegerLiteral) :
    (∀ spelling op, (spelling, op) ∈ Operator.spellings →
      ∃ constraint, Constraint.ofExpression ("id:" ++ spelling ++ l.text) = [constraint] ∧
        (constraint.accepts r = true ↔
          op.Relates r.id.toInt l.value ∧ (op.IsOrdering → l.IsWord))) ∧
    ∃ like, Constraint.ofExpression ("id:" ++ l.text) = [like] ∧
      (like.accepts r = true ↔
        r.id.toInt = l.value ∨
          r.id = Int64.minValue ∧ l.text = IntegerLiteral.leastMagnitude) := by
  have hcomma : ',' ∉ l.text.toList := l.notMem_text (by decide) (by decide)
  have hdots : ¬ ['.', '.'] <:+: l.text.toList := fun h =>
    l.notMem_text (by decide) (by decide) (h.subset List.mem_cons_self)
  constructor
  · intro spelling op hmem
    have hstart : spelling ∈ [">", "<", "="] → ¬ ['='] <+: l.text.toList := fun _ hpre =>
      l.notMem_text (by decide) (by decide) (hpre.subset List.mem_cons_self)
    refine ⟨comparison "id" op l.text, ?_, accepts_comparison_iff⟩
    exact ofExpression_comparison hmem (by decide) (by decide) hcomma hdots hstart (by simp)
  · refine ⟨likeness "id" l.text, ?_, accepts_likeness_iff⟩
    refine ofExpression_likeness (by decide) (by decide) hcomma hdots ?_ (by simp)
    rw [l.trim_text]
    intro start hstart hpre
    simp only [List.mem_cons, List.not_mem_nil, or_false] at hstart
    rcases hstart with rfl | rfl | rfl | rfl <;>
      exact l.notMem_text (by decide) (by decide) (hpre.subset List.mem_cons_self)

/-- Two literals with a sign, the first one the least word with zeros before its digits. -/
theorem idLiteral_accepts_least :
    let l : IntegerLiteral :=
      ⟨['-'], "009223372036854775808".toList, by decide, by decide, List.all_eq_true.mp (by decide)⟩
    l.IsWord ∧ ∃ constraint, Constraint.ofExpression ("id:" ++ ">=" ++ l.text) = [constraint] ∧
      constraint.accepts { id := Int64.minValue } = true := by
  intro l
  have hword : l.IsWord := by decide
  have hmem : (">=", Operator.greaterOrEqual) ∈ Operator.spellings := by decide
  obtain ⟨constraint, hread, hiff⟩ := (idLiteral_accepts { id := Int64.minValue } l).1 _ _ hmem
  exact ⟨hword, constraint, hread, hiff.mpr ⟨by decide, fun _ => hword⟩⟩

/-- No id is below a literal that is no word. -/
theorem idLiteral_accepts_tooLarge :
    let l : IntegerLiteral :=
      ⟨[], "9223372036854775808".toList, by decide, by decide, List.all_eq_true.mp (by decide)⟩
    (1 : Int64).toInt < l.value ∧
      ((Constraint.ofExpression ("id:<" ++ l.text)).all fun c => c.accepts { id := 1 }) = false := by
  decide +kernel

end Roster
