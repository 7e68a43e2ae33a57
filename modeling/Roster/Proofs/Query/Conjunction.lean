import Roster.Proofs.Filter.Reading
import Roster.Proofs.Query.Sorting
import Roster.Query.Answer
import Roster.Record.Sample
import Roster.Store.Basic

/-!
# A comma is a conjunction

- **Filters come last** (`select_withFilters`): what a request with filters selects are those of the
  records it selects without them that meet every constraint (`Record.meets`), whatever the search
  and the sort.
- **Two expressions** (`meets_append`): a record meets them with a comma between them if it meets
  both.
- **Pieces** (`meets_congr`): what an expression asks for depends only on which pieces stand between
  its commas.
- **Both for answers** (`filters_conjunction`).
-/

namespace Roster

/-! ## Meeting an expression -/

/-- Whether a record meets every constraint of an expression. -/
def Record.meets (expression : String) (r : Record) : Bool :=
  (Constraint.ofExpression expression).all fun c => c.accepts r

/-- The texts between the commas of an expression. -/
def expressionPieces (expression : String) : List (List Char) :=
  expression.toList.splitOn ','

theorem meets_append (first second : String) (r : Record) :
    r.meets (first ++ "," ++ second) = (r.meets first && r.meets second) := by
  rw [Record.meets, Constraint.ofExpression_append, List.all_append]
  rfl

/-- Neither the order of the pieces counts nor how often one of them stands there. -/
theorem meets_congr {expression other : String}
    (h : ∀ piece, piece ∈ expressionPieces expression ↔ piece ∈ expressionPieces other) :
    Record.meets expression = Record.meets other := by
  have hmem (c : Constraint) :
      c ∈ Constraint.ofExpression expression ↔ c ∈ Constraint.ofExpression other := by
    rw [Constraint.mem_ofExpression, Constraint.mem_ofExpression]
    exact exists_congr fun piece => and_congr_left' (h piece)
  funext r
  rw [Record.meets, Record.meets, Bool.eq_iff_iff, List.all_eq_true, List.all_eq_true]
  exact forall_congr' fun c => imp_congr_left (hmem c)

/-! ## Selecting with filters -/

namespace Request

/-- The request with a filter expression. -/
def withFilters (q : Request) (expression : String) : Request :=
  { q with filters := some expression }

/-- The request without filters. -/
def withoutFilters (q : Request) : Request :=
  { q with filters := none }

end Request

theorem filter_applySort (sortBy : Option String) (d : Direction) (keep : Record → Bool)
    (records : List Record) :
    (applySort sortBy d records).filter keep = applySort sortBy d (records.filter keep) := by
  unfold applySort
  split
  · exact filter_sortByKey _ d keep records
  · rfl

/-- The filters may as well be applied after the search and the sort. -/
theorem select_withFilters (q : Request) (expression : String) (records : List Record) :
    (q.withFilters expression).select records
      = (q.withoutFilters.select records).filter (Record.meets expression) :=
  (filter_applySort q.sortBy q.direction (Record.meets expression) _).symm

/-- An answer depends on the filters only by what is selected. -/
theorem answer_withFilters_congr {q : Request} {expression other : String} {records : List Record}
    (h : (q.withFilters expression).select records = (q.withFilters other).select records) :
    answer records (q.withFilters expression) = answer records (q.withFilters other) := by
  unfold answer
  rw [h]
  rfl

/-! ## Answers -/

/-- **A comma is a conjunction.** A comma between two expressions puts their constraints one after the
other. What is selected with both are the records selected with the first one that the second one
selects too, in the same order; and expressions with the same pieces between their commas, in any
order and any number, have the same answer. -/
theorem filters_conjunction (store : Store) (q : Request) :
    (∀ first second : String, Constraint.ofExpression (first ++ "," ++ second)
      = Constraint.ofExpression first ++ Constraint.ofExpression second) ∧
    (∀ first second : String, (q.withFilters (first ++ "," ++ second)).select store.records
      = ((q.withFilters first).select store.records).filter
          fun r => r ∈ (q.withFilters second).select store.records) ∧
    (∀ expression other : String,
      (∀ piece, piece ∈ expressionPieces expression ↔ piece ∈ expressionPieces other) →
        answer store.records (q.withFilters expression)
          = answer store.records (q.withFilters other)) := by
  refine ⟨Constraint.ofExpression_append, fun first second => ?_, fun expression other h => ?_⟩
  · simp only [select_withFilters, List.filter_filter]
    refine List.filter_congr fun r hr => ?_
    -- A record that is selected at all is selected with an expression if it meets it.
    have hsecond : decide (r ∈ (q.withoutFilters.select store.records).filter
        (Record.meets second)) = r.meets second := by
      simp [hr]
    rw [hsecond, meets_append, Bool.and_comm]
  · refine answer_withFilters_congr ?_
    rw [select_withFilters, select_withFilters, meets_congr h]

/-- Two clauses among the sample records, and the same ones turned round, one of them twice. -/
theorem filters_conjunction_samples :
    (∀ piece, piece ∈ expressionPieces "id:>3,city:a" ↔
        piece ∈ expressionPieces "city:a,id:>3,city:a") ∧
      answer sampleRecords (Request.withFilters {} "id:>3,city:a")
        = answer sampleRecords (Request.withFilters {} "city:a,id:>3,city:a") := by
  have hpieces : ∀ piece, piece ∈ expressionPieces "id:>3,city:a" ↔
      piece ∈ expressionPieces "city:a,id:>3,city:a" := by
    have hfirst : expressionPieces "id:>3,city:a" = ["id:>3".toList, "city:a".toList] := by decide
    have hsecond : expressionPieces "city:a,id:>3,city:a"
        = ["city:a".toList, "id:>3".toList, "city:a".toList] := by decide
    intro piece
    rw [hfirst, hsecond]
    simp only [List.mem_cons, List.not_mem_nil, or_false]
    rw [or_left_comm, or_self]
  obtain ⟨-, -, hsame⟩ := filters_conjunction ⟨sampleRecords, ∅, "samples"⟩ {}
  exact ⟨hpieces, hsame _ _ hpieces⟩

end Roster
