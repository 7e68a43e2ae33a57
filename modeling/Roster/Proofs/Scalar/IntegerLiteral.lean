import Mathlib.Algebra.Ring.Int.Defs
import Roster.Proofs.Number.Digits
import Roster.Proofs.Scalar.Kinds
import Roster.Proofs.Text.Lowercase

/-!
# Literals of integers

An `IntegerLiteral` has a sign or none and digits, however many. It denotes an integer (`value`) and is
read as that integer if it is a signed word of 64 bits (`ofText_of_isWord`). Any other literal stands
for itself (`ofText_of_not_isWord`).
-/

namespace Roster

open Number Text Time

theorem isCaseless_of_mem_integerText {n : Int} {c : Char} (h : c ∈ integerText n) :
    isCaseless c = true := by
  rcases isDigit_of_mem_integerText h with rfl | hdigit
  · decide
  · exact isCaseless_of_isDigit hdigit

/-- A decimal literal of an integer: digits after an optional sign. -/
structure IntegerLiteral where
  sign : List Char
  digits : List Char
  sign_mem : sign ∈ [[], ['+'], ['-']]
  digits_ne_nil : digits ≠ []
  isDigit : ∀ c ∈ digits, c.isDigit = true

namespace IntegerLiteral

/-- The text of a literal. -/
def text (l : IntegerLiteral) : String :=
  String.ofList (l.sign ++ l.digits)

/-- The number that the digits denote. -/
def magnitude (l : IntegerLiteral) : Nat :=
  Nat.ofDigitChars 10 l.digits 0

/-- The integer that a literal denotes. -/
def value (l : IntegerLiteral) : Int :=
  if l.sign = ['-'] then -(l.magnitude : Int) else l.magnitude

/-- Whether a literal denotes a signed word of 64 bits. -/
def IsWord (l : IntegerLiteral) : Prop :=
  -2 ^ 63 ≤ l.value ∧ l.value < 2 ^ 63

instance (l : IntegerLiteral) : Decidable l.IsWord :=
  inferInstanceAs (Decidable (_ ∧ _))

variable (l : IntegerLiteral)

theorem toList_text : l.text.toList = l.sign ++ l.digits :=
  String.toList_ofList

theorem sign_cases : l.sign = [] ∨ l.sign = ['+'] ∨ l.sign = ['-'] := by
  simpa only [List.mem_cons, List.not_mem_nil, or_false] using l.sign_mem

/-! ## The characters of a literal -/

theorem mem_text {c : Char} (h : c ∈ l.text.toList) : c ∈ ['+', '-'] ∨ c.isDigit = true := by
  rw [toList_text, List.mem_append] at h
  refine h.imp (fun hsign => ?_) (l.isDigit c)
  rcases l.sign_cases with heq | heq | heq <;> rw [heq] at hsign
  · exact absurd hsign List.not_mem_nil
  · exact List.mem_cons.mpr (.inl (List.mem_singleton.mp hsign))
  · exact List.mem_cons_of_mem _ hsign

/-- A character that is neither a sign nor a digit stands in no literal. -/
theorem notMem_text {c : Char} (hsign : c ∉ ['+', '-']) (hdigit : c.isDigit = false) :
    c ∉ l.text.toList := by
  intro h
  rcases l.mem_text h with hmem | htrue
  · exact hsign hmem
  · exact Bool.false_ne_true (hdigit.symm.trans htrue)

theorem isCaseless_of_mem_text {c : Char} (h : c ∈ l.text.toList) : isCaseless c = true := by
  rcases l.mem_text h with hsign | hdigit
  · simp only [List.mem_cons, List.not_mem_nil, or_false] at hsign
    rcases hsign with rfl | rfl <;> decide
  · exact isCaseless_of_isDigit hdigit

theorem trim_text : trim l.text.toList = l.text.toList := by
  refine trim_eq_self_of_forall fun c hc => ?_
  rcases l.mem_text hc with hsign | hdigit
  · simp only [List.mem_cons, List.not_mem_nil, or_false] at hsign
    rcases hsign with rfl | rfl <;> decide
  · exact isBlank_of_isDigit hdigit

/-! ## What a literal is read as -/

theorem integer?_text : integer? l.text.toList = some l.value := by
  have hnatural := natural?_of_digits l.digits_ne_nil l.isDigit
  rw [toList_text, value]
  rcases l.sign_cases with heq | heq | heq <;> rw [heq]
  · rw [List.nil_append, integer?_of_digits l.isDigit, hnatural]
    rfl
  · simp only [List.singleton_append, integer?, hnatural]
    rfl
  · simp only [List.singleton_append, integer?, hnatural]
    rfl

theorem contains_point_text : l.text.toList.contains '.' = false := by
  rw [Bool.eq_false_iff, ne_eq, List.contains_iff_mem]
  exact l.notMem_text (by decide) (by decide)

theorem int64?_of_isWord (h : l.IsWord) :
    int64? l.text.toList = some (Int64.ofInt l.value) := by
  have hrange : (decide (Int64.minValue.toInt ≤ l.value)
      && decide (l.value ≤ Int64.maxValue.toInt)) = true := by
    rw [Int64.toInt_minValue, Int64.toInt_maxValue]
    simp only [Bool.and_eq_true, decide_eq_true_eq]
    exact ⟨h.1, Int.le_sub_one_of_lt h.2⟩
  rw [int64?, integerIn?, integer?_text, Option.filter_some, if_pos hrange]
  rfl

theorem int64?_of_not_isWord (h : ¬ l.IsWord) : int64? l.text.toList = none := by
  have hrange : ¬ (decide (Int64.minValue.toInt ≤ l.value)
      && decide (l.value ≤ Int64.maxValue.toInt)) = true := by
    rw [Int64.toInt_minValue, Int64.toInt_maxValue]
    simp only [Bool.and_eq_true, decide_eq_true_eq]
    exact fun ⟨hlow, hhigh⟩ => h ⟨hlow, Int.lt_of_le_sub_one hhigh⟩
  rw [int64?, integerIn?, integer?_text, Option.filter_some, if_neg hrange]
  rfl

theorem ofText_of_isWord (h : l.IsWord) : Scalar.ofText l.text = .integer (Int64.ofInt l.value) := by
  simp only [Scalar.ofText, contains_point_text, l.int64?_of_isWord h]
  rfl

/-- A timestamp has a dash after its first digits. -/
theorem read?_text : Timestamp.read? l.text.toList = none := by
  refine Option.eq_none_iff_forall_ne_some.mpr fun t ht => ?_
  have hdash := mem_dash_of_read? ht
  rw [toList_text] at ht hdash
  rcases l.sign_cases with heq | heq | heq <;> rw [heq] at ht hdash
  · exact absurd (l.isDigit '-' hdash) (by decide)
  · exact absurd (isDigit_of_read? ht) (by decide)
  · exact absurd (isDigit_of_read? ht) (by decide)

theorem ofText_of_not_isWord (h : ¬ l.IsWord) : Scalar.ofText l.text = .text l.text := by
  simp only [Scalar.ofText, contains_point_text, l.int64?_of_not_isWord h, read?_text]
  rfl

end IntegerLiteral

end Roster
