import Mathlib.Data.List.Nodup
import Roster.Proofs.Query.Selection

/-!
# The order in which records were loaded

- **Stores** (`Store.exists_ofRecords_of_perm`): records can be loaded in every order if they can be
  loaded in one.
- **Sort** (`sortByKey_eq_of_perm`): a key that tells all records from each other leaves nothing of the
  order that they had. The id is such a key (`SortKey.eq_of_le_id`).
- **Answers** (`answer_sortById_of_perm`): sorted by id, the answers to a request do not tell in which
  order the records were loaded.
-/

namespace Roster

variable {records permuted : List Record}

/-! ## Stores -/

namespace Store

theorem IsIndexable.perm (h : IsIndexable records) (hperm : records.Perm permuted) :
    IsIndexable permuted where
  pos r hr := h.pos r (hperm.mem_iff.mpr hr)
  nodup := (hperm.map Record.id).nodup_iff.mp h.nodup

/-- Whether records make a store does not depend on their order, and not on where they come from. -/
theorem exists_ofRecords_of_perm {origin : String} {store : Store}
    (h : ofRecords records origin = .ok store) (hperm : records.Perm permuted) (other : String) :
    ∃ store', ofRecords permuted other = .ok store' := by
  have hrecords : IsIndexable records := exists_ofRecords_iff.mp ⟨store, h⟩
  exact exists_ofRecords_iff.mpr (hrecords.perm hperm)

end Store

/-! ## Selection -/

theorem applySearch_perm (term : Option String) (hperm : records.Perm permuted) :
    (applySearch term records).Perm (applySearch term permuted) := by
  unfold applySearch
  split
  · exact hperm.filter _
  · exact hperm

theorem applyFilters_perm (expression : Option String) (hperm : records.Perm permuted) :
    (applyFilters expression records).Perm (applyFilters expression permuted) := by
  unfold applyFilters applyConstraints
  split
  · exact hperm.filter _
  · exact hperm

theorem SortKey.InOrder.le_and_le {key : SortKey} {d : Direction} {r s : Record}
    (hrs : key.InOrder d r s) (hsr : key.InOrder d s r) : key.Le r s ∧ key.Le s r := by
  cases d with
  | ascending => exact ⟨hrs, hsr⟩
  | descending => exact ⟨hsr, hrs⟩

/-- Records with different ids are told from each other by the key of the id. -/
theorem SortKey.eq_of_le_id (hnodup : (records.map Record.id).Nodup) {r s : Record}
    (hr : r ∈ records) (hs : s ∈ records) (hrs : SortKey.id.Le r s) (hsr : SortKey.id.Le s r) :
    r = s := by
  have hid : r.id = s.id := Int64.le_antisymm hrs hsr
  exact List.inj_on_of_nodup_map hnodup hr hs hid

/-- There is only one order in which a key that tells all records from each other has them. -/
theorem sortByKey_eq_of_perm {key : SortKey}
    (hkey : ∀ r ∈ records, ∀ s ∈ records, key.Le r s → key.Le s r → r = s)
    (hperm : records.Perm permuted) (d : Direction) :
    sortByKey key d records = sortByKey key d permuted := by
  have hsorted := sortByKey_perm key d records
  have hsorted' := sortByKey_perm key d permuted
  refine List.Perm.eq_of_pairwise ?_ (pairwise_sortByKey key d records)
    (pairwise_sortByKey key d permuted) (hsorted.trans (hperm.trans hsorted'.symm))
  intro r s hr hs hrs hsr
  have hs : s ∈ records := hperm.mem_iff.mpr (hsorted'.mem_iff.mp hs)
  obtain ⟨hle, hge⟩ := hrs.le_and_le hsr
  exact hkey r (hsorted.mem_iff.mp hr) s hs hle hge

/-- Sorted by id, what is selected does not depend on the order of the records. -/
theorem Request.select_eq_of_perm {q : Request} (hsort : q.sortBy = some "id")
    (hnodup : (records.map Record.id).Nodup) (hperm : records.Perm permuted) :
    q.select records = q.select permuted := by
  have hkey : q.sortBy.bind SortKey.ofName? = some .id := by
    rw [hsort]
    rfl
  have hkept : (applyFilters q.filters (applySearch q.search records)).Sublist records :=
    (applyFilters_sublist _ _).trans (applySearch_sublist _ _)
  rw [Request.select, Request.select, applySort_of_key hkey, applySort_of_key hkey]
  refine sortByKey_eq_of_perm (fun r hr s hs => ?_)
    (applyFilters_perm q.filters (applySearch_perm q.search hperm)) q.direction
  exact SortKey.eq_of_le_id hnodup (hkept.subset hr) (hkept.subset hs)

/-! ## Answers -/

/-- An answer depends on the records only by what is selected of them. -/
theorem answer_eq_of_select {q : Request} (h : q.select records = q.select permuted) :
    answer records q = answer permuted q := by
  unfold answer
  rw [h]

/-- **The sort by id hides the order of loading.** Records that make a store make one in every other
order too, and a request that is sorted by id, in either direction and whatever else it asks for, has
the same answer from both stores. -/
theorem answer_sortById_of_perm {origin : String} {store : Store} {q : Request}
    (h : Store.ofRecords records origin = .ok store) (hperm : records.Perm permuted)
    (hsort : q.sortBy = some "id") (other : String) :
    ∃ store', Store.ofRecords permuted other = .ok store' ∧
      answer store'.records q = answer store.records q := by
  obtain ⟨store', h'⟩ := Store.exists_ofRecords_of_perm h hperm other
  refine ⟨store', h', answer_eq_of_select ?_⟩
  have hnodup := Store.nodup_ids_of_ofRecords h
  rw [Store.records_of_ofRecords h] at hnodup ⊢
  rw [Store.records_of_ofRecords h', Request.select_eq_of_perm hsort hnodup hperm]

/-- From the greatest id down, the second page of the sample records is the same when they are loaded
backwards. -/
theorem answer_sortById_of_perm_samples :
    ∃ store backwards, Store.ofRecords sampleRecords "samples" = .ok store ∧
      Store.ofRecords sampleRecords.reverse "backwards" = .ok backwards ∧
      answer backwards.records
          { sortBy := some "id", direction := .descending, page := some 2, limit := some 3 }
        = answer store.records
          { sortBy := some "id", direction := .descending, page := some 2, limit := some 3 } := by
  obtain ⟨store, hstore, -⟩ := Store.exists_ofRecords_samples "samples"
  have hperm : sampleRecords.Perm sampleRecords.reverse := (List.reverse_perm sampleRecords).symm
  obtain ⟨backwards, hbackwards, hanswer⟩ := answer_sortById_of_perm
    (q := { sortBy := some "id", direction := .descending, page := some 2, limit := some 3 })
    hstore hperm rfl "backwards"
  exact ⟨store, backwards, hstore, hbackwards, hanswer⟩

end Roster
