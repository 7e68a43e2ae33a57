import Roster.Filter.Reader
import Roster.Proofs.Text.Trimming

/-!
# What a filter expression states

One law for each shape that the reader tells apart.

- **Expressions** (`ofExpression_eq_filterMap`): the constraints of the texts between the commas.
  The blanks around a clause do not count (`ofClause?_trim`), and a comma is an append
  (`ofExpression_append`).
- **Clauses** (`ofClause?_append`): a name, which has no colon, and a condition.
- **Conditions**: a range (`ofText_range`), an operator and its operand (`ofText_compare`), an
  operand alone (`ofText_like`). A pair of dots anywhere makes a range, so it must not stand in the
  others.
-/

namespace Roster

open Text

/-! ## Expressions and clauses -/

namespace Constraint

/-- A clause without a colon states nothing. -/
theorem ofClause?_eq_none {cs : List Char} (h : ':' ∉ cs) : ofClause? cs = none := by
  rw [ofClause?, cut?_singleton_eq_none h]
  rfl

/-- The name ends at the first colon. -/
theorem ofClause?_append {name : List Char} (h : ':' ∉ name) (condition : List Char) :
    ofClause? (name ++ ':' :: condition)
      = some ⟨String.ofList (trim name), .ofText (trim condition)⟩ := by
  rw [ofClause?, cut?_singleton h]
  rfl

/-- The blanks around a clause do not count. -/
theorem ofClause?_trim (cs : List Char) : ofClause? (trim cs) = ofClause? cs := by
  by_cases h : ':' ∈ cs
  · obtain ⟨name, condition, rfl, hname⟩ := List.eq_append_cons_of_mem h
    have hstart : ':' ∉ trimStart name := fun hmem =>
      hname ((List.dropWhile_sublist _).subset hmem)
    rw [trim_append_cons (by decide), ofClause?_append hstart, ofClause?_append hname,
      trim_trimStart, trim_trimEnd]
  · have htrim : ':' ∉ trim cs := fun hmem => h (mem_of_mem_trim hmem)
    rw [ofClause?_eq_none h, ofClause?_eq_none htrim]

/-- An expression states what the texts between its commas state. -/
theorem ofExpression_eq_filterMap (expression : String) :
    ofExpression expression = (expression.toList.splitOn ',').filterMap ofClause? := by
  have hcomp : ofClause? ∘ trim = ofClause? := funext ofClause?_trim
  rw [ofExpression, List.filterMap_map, hcomp]

/-- Clauses with commas between them are read one by one. -/
theorem ofExpression_of_intercalate {expression : String} {clauses : List (List Char)}
    (hcomma : ∀ clause ∈ clauses, ',' ∉ clause)
    (h : expression.toList = [','].intercalate clauses) :
    ofExpression expression = clauses.filterMap ofClause? := by
  rw [ofExpression_eq_filterMap, h]
  by_cases hne : clauses = []
  · rw [hne]
    rfl
  · rw [List.splitOn_intercalate ',' hcomma hne]

/-- A comma between two expressions puts their constraints one after the other. -/
theorem ofExpression_append (first second : String) :
    ofExpression (first ++ "," ++ second) = ofExpression first ++ ofExpression second := by
  have htext : (first ++ "," ++ second).toList = first.toList ++ ',' :: second.toList := by simp
  have hpieces : (first.toList ++ ',' :: second.toList).splitOn ','
      = first.toList.splitOn ',' ++ second.toList.splitOn ',' := by
    simp only [List.splitOn_eq_splitOnP]
    exact List.splitOnP_append_cons _ _ (by simp)
  simp only [ofExpression_eq_filterMap, htext, hpieces, List.filterMap_append]

/-- The constraints of an expression are those of its pieces. -/
theorem mem_ofExpression {expression : String} {c : Constraint} :
    c ∈ ofExpression expression ↔
      ∃ piece ∈ expression.toList.splitOn ',', ofClause? piece = some c := by
  rw [ofExpression_eq_filterMap, List.mem_filterMap]

end Constraint

/-! ## Operators -/

namespace Operator

variable {spelling : String} {op : Operator} {rest : List Char}

private theorem notMem_spelling (hmem : (spelling, op) ∈ spellings) : '.' ∉ spelling.toList := by
  have hall : ∀ s ∈ spellings, '.' ∉ s.1.toList := by decide
  exact hall _ hmem

/-- Only the blanks after the operator can be taken away. -/
private theorem trim_spelling_append (hmem : (spelling, op) ∈ spellings) (rest : List Char) :
    trim (spelling.toList ++ rest) = spelling.toList ++ trimEnd rest := by
  simp only [spellings, List.mem_cons, Prod.mk.injEq, List.not_mem_nil, or_false] at hmem
  rcases hmem with ⟨rfl, -⟩ | ⟨rfl, -⟩ | ⟨rfl, -⟩ | ⟨rfl, -⟩ | ⟨rfl, -⟩ | ⟨rfl, -⟩ | ⟨rfl, -⟩ <;>
    simp (disch := decide) [trim_cons, trimEnd_cons]

/-- The first spelling that fits is the operator's own, unless the operand makes it a longer one. -/
private theorem ofStart?_append (hmem : (spelling, op) ∈ spellings)
    (h : spelling ∈ [">", "<", "="] → ¬ ['='] <+: rest) :
    ofStart? (spelling.toList ++ rest) = some (op, rest) := by
  simp only [spellings, List.mem_cons, Prod.mk.injEq, List.not_mem_nil, or_false] at hmem
  rcases hmem with ⟨rfl, rfl⟩ | ⟨rfl, rfl⟩ | ⟨rfl, rfl⟩ | ⟨rfl, rfl⟩ | ⟨rfl, rfl⟩ | ⟨rfl, rfl⟩ |
    ⟨rfl, rfl⟩ <;> cases rest <;> simp_all [ofStart?, spellings, List.isPrefixOf?]

/-- Every spelling begins with one of four texts. -/
private theorem ofStart?_eq_none {cs : List Char}
    (h : ∀ start ∈ [['>'], ['<'], ['='], ['!', '=']], ¬ start <+: cs) : ofStart? cs = none := by
  have hall : ∀ s ∈ spellings, ∃ start ∈ [['>'], ['<'], ['='], ['!', '=']],
      start <+: s.1.toList := by
    decide
  refine List.findSome?_eq_none_iff.mpr fun (spelling, op) hs => ?_
  obtain ⟨start, hstart, hpre⟩ := hall _ hs
  have hdrop : spelling.toList.isPrefixOf? cs = none :=
    isPrefixOf?_eq_none_iff.mpr fun hcs => h start hstart (hpre.trans hcs)
  exact Option.map_eq_none_iff.mpr hdrop

end Operator

/-! ## Conditions -/

/-- The blanks around an operand do not count. -/
theorem operand_trimStart (cs : List Char) : operand (trimStart cs) = operand cs := by
  rw [operand, operand, trim_trimStart]

theorem operand_trimEnd (cs : List Char) : operand (trimEnd cs) = operand cs := by
  rw [operand, operand, trim_trimEnd]

theorem operand_trim (cs : List Char) : operand (trim cs) = operand cs := by
  rw [operand, operand, trim_trim]

namespace Condition

/-- A pair of dots makes a range, whatever else stands in the text. -/
theorem ofText_of_pair {cs : List Char} (h : ['.', '.'] <:+: cs) :
    ∃ low high, cs = low ++ '.' :: '.' :: high ∧
      ofText cs = .range (operand low) (operand high) := by
  match hcut : cut? ['.', '.'] cs with
  | none => exact absurd h (cut?_eq_none_iff.mp hcut)
  | some (low, high) =>
    refine ⟨low, high, by simpa using eq_append_of_cut? hcut, ?_⟩
    rw [ofText, hcut]

/-- A range is cut at the first pair of dots. -/
theorem ofText_range {low : List Char} (h : ¬ ['.', '.'] <:+: low) (hlast : ¬ ['.'] <:+ low)
    (high : List Char) :
    ofText (trim (low ++ '.' :: '.' :: high)) = .range (operand low) (operand high) := by
  have hsuffix : trimStart low <:+ low := List.dropWhile_suffix _
  have hlow : ¬ ['.', '.'] <:+: trimStart low := fun hin => h (hin.trans hsuffix.isInfix)
  have hlast' : ¬ ['.'] <:+ trimStart low := fun hdot => hlast (hdot.trans hsuffix)
  have hhigh : trimEnd ('.' :: high) = '.' :: trimEnd high := trimEnd_cons (by decide) high
  rw [trim_append_cons (by decide), hhigh, ofText, cut?_pair hlow hlast']
  simp only [operand_trimStart, operand_trimEnd]

/-- An operator and its operand, which neither hold a range nor make another operator. -/
theorem ofText_compare {spelling : String} {op : Operator} {rest : List Char}
    (hmem : (spelling, op) ∈ Operator.spellings) (hdots : ¬ ['.', '.'] <:+: rest)
    (hstart : spelling ∈ [">", "<", "="] → ¬ ['='] <+: rest) :
    ofText (trim (spelling.toList ++ rest)) = .compare op (operand rest) := by
  obtain ⟨blanks, -, hend⟩ := exists_trimEnd_append rest
  have hprefix : trimEnd rest <+: rest := ⟨blanks, hend⟩
  have hcut : cut? ['.', '.'] (spelling.toList ++ trimEnd rest) = none := by
    rw [cut?_eq_none_iff, pair_infix_append_of_notMem_left (Operator.notMem_spelling hmem)]
    exact fun hin => hdots (hin.trans hprefix.isInfix)
  have hop : Operator.ofStart? (spelling.toList ++ trimEnd rest) = some (op, trimEnd rest) :=
    Operator.ofStart?_append hmem fun hs heq => hstart hs (heq.trans hprefix)
  rw [Operator.trim_spelling_append hmem, ofText, hcut, hop]
  simp only [operand_trimEnd]

/-- An operand alone, which holds no range and begins with no operator. -/
theorem ofText_like {cs : List Char} (hdots : ¬ ['.', '.'] <:+: cs)
    (hstart : ∀ start ∈ [['>'], ['<'], ['='], ['!', '=']], ¬ start <+: trim cs) :
    ofText (trim cs) = .like (operand cs) := by
  have hcut : cut? ['.', '.'] (trim cs) = none := by
    rw [cut?_eq_none_iff, pair_infix_trim_iff (by decide)]
    exact hdots
  rw [ofText, hcut, Operator.ofStart?_eq_none hstart]
  simp only [operand_trim]

end Condition

end Roster
