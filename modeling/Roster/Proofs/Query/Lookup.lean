import Roster.Failure
import Roster.Proofs.Filter.Equality
import Roster.Proofs.Query.Conjunction
import Roster.Proofs.Query.Selection
import Roster.Proofs.Store.Index

/-!
# Looking up an id by a filter

The index of a store and a filter for an id are two ways to one record.

- **Three clauses** (`idClauses`): an id alone, after `==`, and as both ends of a range. Each accepts
  the records with that id and no others (`meets_idClause`), the id being written, read again and
  compared as an integer.
- **One record** (`filter_eq_toList_find?`): among the records of a store those with an id are what
  its index has for it.
- **The answer** (`answer_idClause`): the row of that record, or no row.
-/

namespace Roster

open Number Text

/-! ## Written ids -/

/-- The clauses that ask for an id. -/
def idClauses (n : Int64) : List String :=
  ["id:" ++ idText n, "id:==" ++ idText n, "id:" ++ idText n ++ ".." ++ idText n]

private theorem notMem_idText {c : Char} (hc : (c == '-' || c.isDigit) = false) (n : Int64) :
    c ∉ (idText n).toList := by
  rw [idText, String.toList_ofList]
  exact notMem_integerText hc _

private theorem not_pair_infix_idText (n : Int64) : ¬ ['.', '.'] <:+: (idText n).toList :=
  fun h => notMem_idText (by decide) n (h.subset List.mem_cons_self)

theorem operand_idText (n : Int64) : operand (idText n).toList = .integer n := by
  rw [operand, idText, String.toList_ofList, trim_integerText, Scalar.ofText_integerText]

private theorem not_start_prefix_idText (n : Int64) :
    ∀ start ∈ [['>'], ['<'], ['='], ['!', '=']], ¬ start <+: trim (idText n).toList := by
  rw [idText, String.toList_ofList, trim_integerText]
  intro start hmem hpre
  simp only [List.mem_cons, List.not_mem_nil, or_false] at hmem
  rcases hmem with rfl | rfl | rfl | rfl <;>
    exact notMem_integerText (by decide) _ (hpre.subset List.mem_cons_self)

/-- The conditions that the clauses state. -/
def idConditions (n : Int64) : List Condition :=
  [.like (.integer n), .compare .equal (.integer n), .range (.integer n) (.integer n)]

theorem ofExpression_idClause {n : Int64} {expression : String} (h : expression ∈ idClauses n) :
    ∃ condition ∈ idConditions n, Constraint.ofExpression expression = [⟨"id", condition⟩] := by
  have htarget : clauseTarget "id" = "id" := by decide
  have hcomma : ',' ∉ (idText n).toList := notMem_idText (by decide) n
  have hdots := not_pair_infix_idText n
  have hlast : ¬ ['.'] <:+ (idText n).toList := fun hsuf =>
    notMem_idText (by decide) n (hsuf.subset List.mem_cons_self)
  simp only [idClauses, List.mem_cons, List.not_mem_nil, or_false] at h
  rcases h with rfl | rfl | rfl
  · refine ⟨.like (.integer n), by simp [idConditions], ?_⟩
    have hclause := @ofExpression_likeness "id" (idText n) ("id:" ++ idText n) (by decide)
      (by decide) hcomma hdots (not_start_prefix_idText n) (by simp)
    rw [hclause, likeness, htarget, operand_idText]
  · refine ⟨.compare .equal (.integer n), by simp [idConditions], ?_⟩
    have hclause := @ofExpression_comparison "id" (idText n) ("id:==" ++ idText n) "==" .equal
      (by decide) (by decide) (by decide) hcomma hdots (by simp) (by simp)
    rw [hclause, comparison, htarget, operand_idText]
  · refine ⟨.range (.integer n) (.integer n), by simp [idConditions], ?_⟩
    have hclause := @ofExpression_range "id" (idText n) (idText n) (by decide) (by decide) hcomma
      hcomma hdots hlast
    rw [htarget, operand_idText] at hclause
    exact hclause

/-! ## Records with an id -/

theorem resolve?_id (r : Record) : r.resolve? "id" = some (.integer r.id) := rfl

/-- Every one of the conditions accepts the id itself and no other. -/
theorem accepts_idCondition {n m : Int64} {condition : Condition}
    (h : condition ∈ idConditions n) :
    condition.accepts (some (.integer m)) = true ↔ m = n := by
  -- All three conditions ask for the same outcome of one comparison.
  have heq : order m.toInt n.toInt = .eq ↔ m = n :=
    Binary64.order_eq_eq_iff.trans Int64.toInt_inj
  simp only [idConditions, List.mem_cons, List.not_mem_nil, or_false] at h
  rw [← heq]
  rcases h with rfl | rfl | rfl
  · have hlike : (Condition.like (.integer n)).accepts (some (.integer m))
        = (some (order m.toInt n.toInt) == some .eq) := rfl
    rw [hlike, beq_iff_eq, Option.some.injEq]
  · have hequal : (Condition.compare .equal (.integer n)).accepts (some (.integer m))
        = (order m.toInt n.toInt == .eq) := Condition.accepts_compare_of_compare? rfl rfl
    rw [hequal, beq_iff_eq]
  · have hrange : (Condition.range (.integer n) (.integer n)).accepts (some (.integer m))
        = (order m.toInt n.toInt != .lt && order m.toInt n.toInt != .gt) := rfl
    rw [hrange]
    cases order m.toInt n.toInt <;> decide

theorem meets_idClause {n : Int64} {expression : String} (h : expression ∈ idClauses n)
    (r : Record) : r.meets expression = (r.id == n) := by
  obtain ⟨condition, hcondition, hreads⟩ := ofExpression_idClause h
  have haccepts : r.meets expression = condition.accepts (some (.integer r.id)) := by
    rw [Record.meets, hreads, List.all_cons, List.all_nil, Bool.and_true, Constraint.accepts,
      resolve?_id]
  rw [haccepts, Bool.eq_iff_iff, accepts_idCondition hcondition, beq_iff_eq]

/-! ## One record -/

/-- Only one of different ids is a given one. -/
theorem filter_id_of_nodup {records : List Record} (hnodup : (records.map Record.id).Nodup)
    {r : Record} (hr : r ∈ records) : records.filter (fun s => s.id == r.id) = [r] := by
  obtain ⟨before, after, rfl⟩ := List.append_of_mem hr
  rw [List.map_append, List.map_cons, List.nodup_append, List.nodup_cons] at hnodup
  obtain ⟨-, ⟨hafter, -⟩, hbefore⟩ := hnodup
  have hnone {others : List Record} (hothers : ∀ s ∈ others, s.id ≠ r.id) :
      others.filter (fun s => s.id == r.id) = [] :=
    List.filter_eq_nil_iff.mpr fun s hs => by simpa using hothers s hs
  have hself : (r :: after).filter (fun s => s.id == r.id) = r :: after.filter (·.id == r.id) :=
    List.filter_cons_of_pos (beq_self_eq_true r.id)
  rw [List.filter_append, hself,
    hnone fun s hs => hbefore s.id (List.mem_map_of_mem hs) r.id List.mem_cons_self,
    hnone fun s hs heq => hafter (heq ▸ List.mem_map_of_mem hs), List.nil_append]

/-- The index of a store has the one record with an id. -/
theorem filter_eq_toList_find? {records : List Record} {origin : String} {store : Store}
    (h : Store.ofRecords records origin = .ok store) (n : Int64) :
    store.records.filter (fun r => r.id == n) = (store.find? n).toList := by
  cases hfind : store.find? n with
  | some r =>
    obtain ⟨hr, rfl⟩ := (Store.find?_eq_some_iff h).mp hfind
    exact filter_id_of_nodup (Store.nodup_ids_of_ofRecords h) hr
  | none =>
    refine List.filter_eq_nil_iff.mpr fun r hr hid => ?_
    have hsome := (Store.find?_eq_some_iff h).mpr ⟨hr, beq_iff_eq.mp hid⟩
    rw [hfind] at hsome
    cases hsome

/-! ## The answer -/

/-- **Looking up an id and filtering for it agree.** The answer to a request that only has one of the
clauses for an id is the whole nested row of the record that the store finds under the id, and no
row if it finds none. -/
theorem answer_idClause {records : List Record} {origin : String} {store : Store}
    (h : Store.ofRecords records origin = .ok store) (n : Int64) {expression : String}
    (hexpression : expression ∈ idClauses n) :
    match store.find? n with
    | some r =>
      (answer store.records { filters := some expression }).total = 1 ∧
        (answer store.records { filters := some expression }).data = [r.project none .nested]
    | none =>
      (answer store.records { filters := some expression }).total = 0 ∧
        (answer store.records { filters := some expression }).data = [] := by
  have hmeets : Record.meets expression = fun r => r.id == n :=
    funext fun r => meets_idClause hexpression r
  have hselect : Request.select { filters := some expression } store.records
      = (store.find? n).toList := by
    refine (select_withFilters {} expression store.records).trans ?_
    rw [hmeets]
    exact filter_eq_toList_find? h n
  have hwhole : Request.IsWhole { filters := some expression } := .inl rfl
  obtain ⟨htotal, hdata⟩ := answer_of_isWhole hwhole store.records
  rw [hselect] at htotal hdata
  rw [htotal, hdata]
  cases store.find? n with
  | some r => exact ⟨rfl, rfl⟩
  | none => exact ⟨rfl, rfl⟩

/-- A sample record by the range from its id to its id. -/
theorem answer_idClause_samples :
    ∃ store, Store.ofRecords sampleRecords "samples" = .ok store ∧ "id:7..7" ∈ idClauses 7 ∧
      ∃ r ∈ sampleRecords, r.id = 7 ∧
        (answer store.records { filters := some "id:7..7" }).data = [r.project none .nested] := by
  obtain ⟨store, hstore, hrecords⟩ := Store.exists_ofRecords_samples "samples"
  have hclause : "id:7..7" ∈ idClauses 7 := by decide
  obtain ⟨r, hr, hid⟩ : ∃ r ∈ sampleRecords, r.id = 7 := by decide
  have hanswer := answer_idClause hstore 7 hclause
  rw [(Store.find?_eq_some_iff hstore).mpr ⟨hrecords ▸ hr, hid⟩] at hanswer
  exact ⟨store, hstore, hclause, r, hr, hid, hanswer.2⟩

end Roster
