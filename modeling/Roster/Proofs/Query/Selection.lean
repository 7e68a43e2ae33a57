import Roster.Proofs.Query.Sorting
import Roster.Proofs.Store.Index
import Roster.Query.Answer

/-!
# Which records an answer holds

- **Search** (`mem_applySearch`) and **filters** (`mem_applyFilters`) keep the records with
  `Record.IsFound` and `Record.IsKept`, in their order.
- **Without a page** (`answer_of_isWhole`) every selected record has its row in the answer.
- **The whole answer** (`exists_selected`): which records are selected and in which order depends on
  the search, the filters and the sort, and on nothing else.
-/

namespace Roster

/-! ## Search and filters -/

namespace Record

/-- Whether a search finds a record: without a term it finds every record, otherwise those in which
the lowercase term is a part of the lowercase text of a column. -/
def IsFound (term : Option String) (r : Record) : Prop :=
  ∀ t, term = some t → t ≠ "" →
    ∃ c ∈ searchColumns, ∃ v, r.value? c = some v ∧ lowercase t <:+: lowercase v.display

/-- Whether filters keep a record: it meets every constraint of the expression, if there is one. -/
def IsKept (expression : Option String) (r : Record) : Prop :=
  ∀ e, expression = some e → ∀ c ∈ Constraint.ofExpression e, c.accepts r = true

theorem mentions_iff {term : List Char} {r : Record} :
    r.mentions term = true ↔
      ∃ c ∈ searchColumns, ∃ v, r.value? c = some v ∧ term <:+: lowercase v.display := by
  rw [mentions, List.any_eq_true]
  refine exists_congr fun c => and_congr_right fun _ => ?_
  cases r.value? c with
  | none => simp
  | some v => simp [Text.occursIn_iff]

end Record

/-- A search without a term, or for the empty one, leaves out nothing. -/
theorem applySearch_of_empty {term : Option String} (h : ∀ t, term = some t → t = "")
    (records : List Record) : applySearch term records = records := by
  cases term with
  | none => rfl
  | some t => rw [h t rfl]; rfl

theorem applySearch_of_ne {t : String} (h : t ≠ "") (records : List Record) :
    applySearch (some t) records = records.filter (Record.mentions (lowercase t)) := by
  have hterm : (some t).filter (fun t => !t.isEmpty) = some t := by simp [h]
  rw [applySearch, hterm]

theorem applySearch_sublist (term : Option String) (records : List Record) :
    (applySearch term records).Sublist records := by
  unfold applySearch
  split
  · exact List.filter_sublist
  · exact List.Sublist.refl _

theorem applyFilters_sublist (expression : Option String) (records : List Record) :
    (applyFilters expression records).Sublist records := by
  unfold applyFilters applyConstraints
  split
  · exact List.filter_sublist
  · exact List.Sublist.refl _

theorem mem_applySearch {term : Option String} {records : List Record} {r : Record} :
    r ∈ applySearch term records ↔ r ∈ records ∧ r.IsFound term := by
  by_cases h : ∀ t, term = some t → t = ""
  · rw [applySearch_of_empty h]
    exact (and_iff_left fun t ht hne => absurd (h t ht) hne).symm
  · obtain ⟨t, rfl, ht⟩ : ∃ t, term = some t ∧ t ≠ "" := by simpa using h
    simp [applySearch_of_ne ht, Record.IsFound, Record.mentions_iff, ht]

theorem mem_applyFilters {expression : Option String} {records : List Record} {r : Record} :
    r ∈ applyFilters expression records ↔ r ∈ records ∧ r.IsKept expression := by
  cases expression with
  | none => simp [applyFilters, Record.IsKept]
  | some e => simp [applyFilters, applyConstraints, Record.IsKept]

/-! ## Sort -/

theorem applySort_of_key {sortBy : Option String} {key : SortKey}
    (h : sortBy.bind SortKey.ofName? = some key) (d : Direction) (records : List Record) :
    applySort sortBy d records = sortByKey key d records := by
  rw [applySort, h]

theorem applySort_of_none {sortBy : Option String} (h : sortBy.bind SortKey.ofName? = none)
    (d : Direction) (records : List Record) : applySort sortBy d records = records := by
  rw [applySort, h]

theorem applySort_perm (sortBy : Option String) (d : Direction) (records : List Record) :
    (applySort sortBy d records).Perm records := by
  unfold applySort
  split
  · exact sortByKey_perm _ _ _
  · exact List.Perm.refl _

/-! ## The whole answer -/

/-- Whether a request asks for everything: a page without a limit is no page. -/
def Request.IsWhole (q : Request) : Prop :=
  q.page = none ∨ q.limit = none

theorem pageWindow?_of_isWhole {q : Request} (h : q.IsWhole) (total : Nat) :
    pageWindow? total q.page q.limit = none := by
  rcases h with h | h
  · rw [h]; rfl
  · rw [h]; cases q.page <;> rfl

/-- Without a page every selected record has its row. -/
theorem answer_of_isWhole {q : Request} (h : q.IsWhole) (records : List Record) :
    (answer records q).total = (q.select records).length ∧
      (answer records q).data = (q.select records).map fun r => r.project q.chosen? q.shape := by
  refine ⟨rfl, ?_⟩
  unfold answer
  simp only [pageWindow?_of_isWhole h]

/-- **What a request selects.** The search, the filters and the sort determine a list of records of
the store; the answer to every request with them, whatever its columns and shape, has the rows of
these records. The list holds each record that is found and kept once, and no other record. Under a
sort key it is in the order of the key, and records between which the key does not decide stand as
they do in the store, in both directions; without a key all records stand as they do there. -/
theorem exists_selected {records : List Record} {origin : String} {store : Store}
    (h : Store.ofRecords records origin = .ok store) (search filters sortBy : Option String)
    (direction : Direction) :
    ∃ selected : List Record,
      (∀ q : Request, q.search = search → q.filters = filters → q.sortBy = sortBy →
        q.direction = direction → q.IsWhole →
          (answer store.records q).total = selected.length ∧
            (answer store.records q).data = selected.map fun r => r.project q.chosen? q.shape) ∧
      (selected.Nodup ∧
        ∀ r, r ∈ selected ↔ r ∈ store.records ∧ r.IsFound search ∧ r.IsKept filters) ∧
      (∀ key, sortBy.bind SortKey.ofName? = some key →
        selected.Pairwise (key.InOrder direction) ∧
          ∀ r ∈ selected, ∀ s ∈ selected, key.Le r s → key.Le s r →
            ([r, s].Sublist selected ↔ [r, s].Sublist store.records)) ∧
      (sortBy.bind SortKey.ofName? = none → selected.Sublist store.records) := by
  have hnodup := Store.nodup_records_of_ofRecords h
  let kept := applyFilters filters (applySearch search store.records)
  have hkept : kept.Sublist store.records :=
    (applyFilters_sublist _ _).trans (applySearch_sublist _ _)
  have hperm := applySort_perm sortBy direction kept
  refine ⟨applySort sortBy direction kept, ?_, ⟨?_, ?_⟩, ?_, ?_⟩
  · rintro q rfl rfl rfl rfl hwhole
    exact answer_of_isWhole hwhole store.records
  · exact hperm.nodup_iff.mpr (hnodup.sublist hkept)
  · intro r
    rw [hperm.mem_iff, mem_applyFilters, mem_applySearch, and_assoc]
  · intro key hkey
    rw [applySort_of_key hkey] at hperm ⊢
    refine ⟨pairwise_sortByKey key direction kept, fun r hr s hs hrs hsr => ?_⟩
    have hr := hperm.mem_iff.mp hr
    have hs := hperm.mem_iff.mp hs
    -- The sort is stable on what is found and kept, which stands as it does in the store.
    rw [pair_sublist_sortByKey_iff (hnodup.sublist hkept) hr hs hrs hsr]
    exact pair_sublist_iff_of_sublist hkept hnodup hr hs
  · intro hkey
    rw [applySort_of_none hkey]
    exact hkept

/-- The sample records with a small id in whose columns an `a` occurs, from the last city on. -/
theorem exists_selected_samples :
    ∃ store, Store.ofRecords sampleRecords "samples" = .ok store ∧
      ∃ selected : List Record, selected.Pairwise (SortKey.city.InOrder .descending) ∧
        (answer store.records
          { search := some "a", filters := some "id:<8", sortBy := some "city",
            direction := .descending, page := some 2 }).total = selected.length := by
  obtain ⟨store, hstore, -⟩ := Store.exists_ofRecords_samples "samples"
  obtain ⟨selected, hdata, -, hsorted, -⟩ :=
    exists_selected hstore (some "a") (some "id:<8") (some "city") .descending
  exact ⟨store, hstore, selected, (hsorted .city rfl).1, (hdata _ rfl rfl rfl rfl (.inr rfl)).1⟩

end Roster
