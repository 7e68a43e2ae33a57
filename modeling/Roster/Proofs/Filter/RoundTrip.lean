import Mathlib.Data.List.Basic
import Roster.Filter.Writer
import Roster.Proofs.Filter.Reading

/-!
# Filter expressions read back

An expression that is written from clauses states these clauses (`ofExpression_expressionText`),
whatever blanks stand around their parts and whatever texts without a colon stand between them.

- **Bodies** (`ofText_bodyText`): one case for each shape, by the law of that shape.
- **Clauses** (`ofClause?_text`) and their **commas** (`comma_notMem_text`): no piece has one, so
  the expression is cut between the pieces and nowhere else.
-/

namespace Roster

open Text

namespace Clause

/-! ## What plain parts are -/

theorem Spacing.isBlank_iff {spacing : Spacing} : spacing.isBlank = true ↔
    (∀ c ∈ spacing.beforeName, Text.isBlank c = true) ∧
    (∀ c ∈ spacing.afterName, Text.isBlank c = true) ∧
    (∀ c ∈ spacing.beforeBody, Text.isBlank c = true) ∧
    (∀ c ∈ spacing.beforeDots, Text.isBlank c = true) ∧
    (∀ c ∈ spacing.beforeOperand, Text.isBlank c = true) ∧
    (∀ c ∈ spacing.afterBody, Text.isBlank c = true) := by
  simp [isBlank]

/-- A character that is no blank stands nowhere between the parts. -/
theorem Spacing.notMem {spacing : Spacing} (hs : spacing.isBlank = true) {c : Char}
    (hc : Text.isBlank c = false) :
    c ∉ spacing.beforeName ∧ c ∉ spacing.afterName ∧ c ∉ spacing.beforeBody ∧
      c ∉ spacing.beforeDots ∧ c ∉ spacing.beforeOperand ∧ c ∉ spacing.afterBody := by
  obtain ⟨h₁, h₂, h₃, h₄, h₅, h₆⟩ := Spacing.isBlank_iff.mp hs
  exact ⟨notMem_of_isBlank h₁ hc, notMem_of_isBlank h₂ hc, notMem_of_isBlank h₃ hc,
    notMem_of_isBlank h₄ hc, notMem_of_isBlank h₅ hc, notMem_of_isBlank h₆ hc⟩

theorem isOperand_iff {cs : List Char} : isOperand cs = true ↔ ',' ∉ cs ∧ trim cs = cs := by
  simp [isOperand]

private theorem occursIn_eq_false_iff {part cs : List Char} :
    occursIn part cs = false ↔ ¬ part <:+: cs := by
  rw [← occursIn_iff, Bool.not_eq_true]

private theorem isPrefixOf_eq_false_iff {start cs : List Char} :
    start.isPrefixOf cs = false ↔ ¬ start <+: cs := by
  rw [← List.isPrefixOf_iff_prefix, Bool.not_eq_true]

theorem isPlainBody_range_iff {low high : List Char} :
    isPlainBody (.range low high) = true ↔
      isOperand low = true ∧ isOperand high = true ∧ ¬ ['.', '.'] <:+: low ∧ ¬ ['.'] <:+ low := by
  simp [isPlainBody, occursIn_eq_false_iff, List.singleton_suffix_iff_getLast?_eq_some, and_assoc]

theorem isPlainBody_compare_iff {spelling : String} {op : Operator} {value : List Char} :
    isPlainBody (.compare spelling op value) = true ↔
      (spelling, op) ∈ Operator.spellings ∧ isOperand value = true ∧ ¬ ['.', '.'] <:+: value ∧
        (spelling ∈ [">", "<", "="] → ¬ ['='] <+: value) := by
  simp only [isPlainBody, Bool.and_eq_true, List.contains_iff_mem, Bool.not_eq_true',
    occursIn_eq_false_iff, Bool.and_eq_false_imp, isPrefixOf_eq_false_iff, and_assoc]

theorem isPlainBody_like_iff {value : List Char} :
    isPlainBody (.like value) = true ↔
      isOperand value = true ∧ ¬ ['.', '.'] <:+: value ∧
        ∀ start ∈ [['>'], ['<'], ['='], ['!', '=']], ¬ start <+: value := by
  simp only [isPlainBody, Bool.and_eq_true, Bool.not_eq_true', occursIn_eq_false_iff,
    List.all_eq_true, isPrefixOf_eq_false_iff, and_assoc]

theorem isPlain_iff {c : Clause} : c.isPlain = true ↔
    isOperand c.name = true ∧ ':' ∉ c.name ∧ isPlainBody c.body = true := by
  simp [isPlain, and_assoc]

/-! ## Bodies -/

/-- The operand of a plain text is the scalar of that text, blanks or not. -/
theorem operand_of_isOperand {cs blanks : List Char} (h : isOperand cs = true)
    (hb : ∀ c ∈ blanks, Text.isBlank c = true) :
    operand (cs ++ blanks) = .ofText (String.ofList cs) ∧
      operand (blanks ++ cs) = .ofText (String.ofList cs) := by
  have htrim := (isOperand_iff.mp h).2
  constructor
  · rw [operand, trim_append_right hb, htrim]
  · rw [operand, trim_append_left hb, htrim]

/-- A plain body is read back, whatever blanks stand around it and in it. -/
theorem ofText_bodyText {spacing : Spacing} {body : ClauseBody} (hs : spacing.isBlank = true)
    (hb : isPlainBody body = true) :
    Condition.ofText (trim (spacing.beforeBody ++ body.text spacing ++ spacing.afterBody))
      = body.condition := by
  obtain ⟨-, -, hbefore, hdots, hoperand, hafter⟩ := Spacing.isBlank_iff.mp hs
  rw [trim_append_right hafter, trim_append_left hbefore]
  cases body with
  | range low high =>
    obtain ⟨hlow, hhigh, hpair, hlast⟩ := isPlainBody_range_iff.mp hb
    -- A blank is no dot, so that neither a bound nor what stands around it moves the pair of dots.
    obtain ⟨-, -, -, hnodot, -, -⟩ := Spacing.notMem hs (show Text.isBlank '.' = false by decide)
    have htext : ClauseBody.text spacing (.range low high)
        = (low ++ spacing.beforeDots) ++ '.' :: '.' :: (spacing.beforeOperand ++ high) := by
      simp [ClauseBody.text]
    rw [htext, Condition.ofText_range, (operand_of_isOperand hlow hdots).1,
      (operand_of_isOperand hhigh hoperand).2]
    · rfl
    · rwa [pair_infix_append_of_notMem_right hnodot]
    · exact fun hsuf => hlast (singleton_suffix_of_append hnodot hsuf)
  | compare spelling op value =>
    obtain ⟨hmem, hvalue, hpair, hstart⟩ := isPlainBody_compare_iff.mp hb
    obtain ⟨-, -, -, -, hnodot, -⟩ := Spacing.notMem hs (show Text.isBlank '.' = false by decide)
    obtain ⟨-, -, -, -, hnoeq, -⟩ := Spacing.notMem hs (show Text.isBlank '=' = false by decide)
    rw [ClauseBody.text, List.append_assoc, Condition.ofText_compare hmem,
      (operand_of_isOperand hvalue hoperand).2]
    · rfl
    · rwa [pair_infix_append_of_notMem_left hnodot]
    · exact fun hs hpre => hstart hs (singleton_prefix_of_append hnoeq hpre)
  | like value =>
    obtain ⟨hvalue, hpair, hstart⟩ := isPlainBody_like_iff.mp hb
    have htrim := (isOperand_iff.mp hvalue).2
    rw [ClauseBody.text, Condition.ofText_like hpair (by rwa [htrim]), operand, htrim]
    rfl

/-! ## Clauses -/

/-- A plain clause is read back. -/
theorem ofClause?_text {spacing : Spacing} {c : Clause} (hs : spacing.isBlank = true)
    (hc : c.isPlain = true) : Constraint.ofClause? (c.text spacing) = some c.constraint := by
  obtain ⟨hname, hcolon, hbody⟩ := isPlain_iff.mp hc
  obtain ⟨hbefore, hafter, -⟩ := Spacing.isBlank_iff.mp hs
  have htext : c.text spacing = (spacing.beforeName ++ c.name ++ spacing.afterName)
      ++ ':' :: (spacing.beforeBody ++ c.body.text spacing ++ spacing.afterBody) := by
    simp [text]
  have hnocolon : ':' ∉ spacing.beforeName ++ c.name ++ spacing.afterName := by
    obtain ⟨hbefore', hafter', -⟩ := Spacing.notMem hs (show Text.isBlank ':' = false by decide)
    simp [hcolon, hbefore', hafter']
  rw [htext, Constraint.ofClause?_append hnocolon, ofText_bodyText hs hbody,
    trim_append_right hafter, trim_append_left hbefore, (isOperand_iff.mp hname).2]
  rfl

private theorem comma_notMem_bodyText {spacing : Spacing} {body : ClauseBody}
    (hs : spacing.isBlank = true) (hb : isPlainBody body = true) : ',' ∉ body.text spacing := by
  obtain ⟨-, -, -, hdots, hoperand, -⟩ :=
    Spacing.notMem hs (show Text.isBlank ',' = false by decide)
  cases body with
  | range low high =>
    obtain ⟨hlow, hhigh, -⟩ := isPlainBody_range_iff.mp hb
    simp [ClauseBody.text, hdots, hoperand, (isOperand_iff.mp hlow).1, (isOperand_iff.mp hhigh).1]
  | compare spelling op value =>
    obtain ⟨hmem, hvalue, -⟩ := isPlainBody_compare_iff.mp hb
    have hspelling : ',' ∉ spelling.toList := by
      have hall : ∀ s ∈ Operator.spellings, ',' ∉ s.1.toList := by decide
      exact hall _ hmem
    simp [ClauseBody.text, hspelling, hoperand, (isOperand_iff.mp hvalue).1]
  | like value =>
    exact (isOperand_iff.mp (isPlainBody_like_iff.mp hb).1).1

/-- A plain clause has no comma. -/
theorem comma_notMem_text {spacing : Spacing} {c : Clause} (hs : spacing.isBlank = true)
    (hc : c.isPlain = true) : ',' ∉ c.text spacing := by
  obtain ⟨hname, -, hbody⟩ := isPlain_iff.mp hc
  obtain ⟨h₁, h₂, h₃, -, -, h₆⟩ := Spacing.notMem hs (show Text.isBlank ',' = false by decide)
  simp [text, h₁, h₂, h₃, h₆, (isOperand_iff.mp hname).1, comma_notMem_bodyText hs hbody]

end Clause

/-! ## Expressions -/

namespace ExpressionPiece

/-- A plain piece states its clause, if it is one. -/
theorem ofClause?_pieceText {p : ExpressionPiece} (h : p.isPlain = true) :
    Constraint.ofClause? p.text = p.clause?.map Clause.constraint := by
  cases p with
  | clause spacing c =>
    obtain ⟨hs, hc⟩ := Bool.and_eq_true_iff.mp h
    exact Clause.ofClause?_text hs hc
  | remark cs =>
    have hcolon : ':' ∉ cs := by simp_all [isPlain]
    exact Constraint.ofClause?_eq_none hcolon

private theorem comma_notMem_pieceText {p : ExpressionPiece} (h : p.isPlain = true) : ',' ∉ p.text := by
  cases p with
  | clause spacing c =>
    obtain ⟨hs, hc⟩ := Bool.and_eq_true_iff.mp h
    exact Clause.comma_notMem_text hs hc
  | remark cs => simp_all [isPlain, text]

end ExpressionPiece

/-- **What is written is read back.** The constraints of an expression that is written from plain
pieces are those of its clauses, in their order; the pieces without a colon state nothing. -/
theorem ofExpression_expressionText {pieces : List ExpressionPiece}
    (h : ∀ p ∈ pieces, p.isPlain = true) :
    Constraint.ofExpression (expressionText pieces)
      = pieces.filterMap fun p => p.clause?.map Clause.constraint := by
  have hread : ∀ p ∈ pieces, Constraint.ofClause? p.text = p.clause?.map Clause.constraint :=
    fun p hp => ExpressionPiece.ofClause?_pieceText (h p hp)
  have hcomma : ∀ cs ∈ pieces.map ExpressionPiece.text, ',' ∉ cs := by
    simpa using fun p hp => ExpressionPiece.comma_notMem_pieceText (h p hp)
  rw [expressionText, Constraint.ofExpression_of_intercalate hcomma String.toList_ofList,
    List.filterMap_map]
  exact List.filterMap_congr hread

/-- A range whose high end starts with a point, a remark, an operator among blanks and an operand
with a colon under an empty name. -/
def mixedPieces : List ExpressionPiece := [
  .clause { beforeBody := [' '], beforeDots := ['\u00A0'] } ⟨['i', 'd'], .range ['1'] ['.', '5']⟩,
  .remark ['n', 'o', 't', 'e'],
  .clause { beforeName := [' '], afterName := ['\t'], beforeOperand := [' '] }
    ⟨['c', 'i', 't', 'y'], .compare "!=" .notEqual ['=', 'R', 'o', 'm', 'e']⟩,
  .clause {} ⟨[], .like ['1', '0', ':', '3', '0']⟩]

theorem ofExpression_mixedPieces :
    (∀ p ∈ mixedPieces, p.isPlain = true) ∧
      expressionText mixedPieces = "id: 1\u00A0...5,note, city\t:!= =Rome,:10:30" ∧
      Constraint.ofExpression (expressionText mixedPieces)
        = [⟨"id", .range (.ofText "1") (.ofText ".5")⟩,
            ⟨"city", .compare .notEqual (.ofText "=Rome")⟩, ⟨"", .like (.ofText "10:30")⟩] := by
  have hplain : ∀ p ∈ mixedPieces, p.isPlain = true := by decide
  exact ⟨hplain, by decide, ofExpression_expressionText hplain⟩

end Roster
