import Roster.Proofs.Text.ByteOrder
import Roster.Query.Sort

/-!
# Sorted records

- **The order of a key** (`SortKey.Le`): ids by their number, everything else by the bytes of the
  lowercase text. `Direction.inOrder` decides it (`inOrder_valueOf_iff`).
- **The sort** (`sortByKey_eq_mergeSort`): a stable sort of the records themselves, which commutes
  with leaving records out (`filter_sortByKey`).
- **Places** (`pair_sublist_sortByKey_iff`): two records between which the key does not decide keep
  their order, in both directions.
-/

namespace Roster

open Text

/-! ## The order of a key -/

/-- Every value but the id is a text. -/
private theorem Record.value?_ne_integer {c : Column} (h : c ≠ .id) (r : Record) (n : Int64) :
    r.value? c ≠ some (.integer n) := by
  cases c <;> first
    | contradiction
    | simp [value?, Column.segments, ColumnGroup.segments, Column.group, Column.leaf, fieldAt?,
        Address.fieldAt?, Geo.fieldAt?, Company.fieldAt?, Option.bind_eq_some_iff]

namespace SortKey

/-- The lowercase text under a key; an absent value is the empty text. -/
def text (key : SortKey) (r : Record) : List Char :=
  ((r.value? key.column).map fun v => lowercase v.display).getD []

/-- Whether a record comes before another one under a key, or is equal to it there. -/
def Le (key : SortKey) (r s : Record) : Prop :=
  if key = .id then r.id ≤ s.id else utf8Bytes (key.text r) ≤ utf8Bytes (key.text s)

/-- Whether two records stand in the order of a key in a direction, or are equal there. -/
def InOrder (key : SortKey) (d : Direction) (r s : Record) : Prop :=
  match d with
  | .ascending => key.Le r s
  | .descending => key.Le s r

private theorem column_ne_id {key : SortKey} (h : key ≠ .id) : key.column ≠ .id := by
  cases key <;> first | contradiction | decide

theorem valueOf_id (r : Record) : valueOf .id r = .number r.id.toInt := rfl

/-- Only ids are sorted as numbers. -/
theorem valueOf_eq_text {key : SortKey} (h : key ≠ .id) (r : Record) :
    key.valueOf r = .text (key.text r) := by
  have hv := Record.value?_ne_integer (column_ne_id h) r
  unfold valueOf text
  match hvalue : r.value? key.column with
  | some (.integer n) => exact absurd hvalue (hv n)
  | some (.text s) => rfl
  | none => rfl

theorem precedes_valueOf_iff (key : SortKey) (r s : Record) :
    (key.valueOf r).precedes (key.valueOf s) = true ↔ key.Le r s := by
  by_cases h : key = .id
  · subst h
    simp [Le, valueOf_id, SortValue.precedes, Int64.le_iff_toInt_le]
  · rw [valueOf_eq_text h, valueOf_eq_text h, Le, if_neg h]
    exact precedes_iff_utf8Bytes_le

end SortKey

theorem inOrder_valueOf_iff (key : SortKey) (d : Direction) (r s : Record) :
    d.inOrder (key.valueOf r) (key.valueOf s) = true ↔ key.InOrder d r s := by
  cases d with
  | ascending => exact key.precedes_valueOf_iff r s
  | descending => exact key.precedes_valueOf_iff s r

theorem SortValue.precedes_total (a b : SortValue) :
    a.precedes b = true ∨ b.precedes a = true := by
  cases a <;> cases b <;> simp only [precedes, decide_eq_true_eq, true_or, or_true]
  · omega
  · exact Text.precedes_total _ _

theorem SortValue.precedes_trans {a b c : SortValue} (hab : a.precedes b = true)
    (hbc : b.precedes c = true) : a.precedes c = true := by
  cases a <;> cases b <;> cases c <;> simp_all only [precedes, decide_eq_true_eq, reduceCtorEq]
  · omega
  · exact Text.precedes_trans hab hbc

theorem Direction.inOrder_total (d : Direction) (a b : SortValue) :
    d.inOrder a b = true ∨ d.inOrder b a = true := by
  cases d with
  | ascending => exact a.precedes_total b
  | descending => exact b.precedes_total a

theorem Direction.inOrder_trans {d : Direction} {a b c : SortValue} (hab : d.inOrder a b = true)
    (hbc : d.inOrder b c = true) : d.inOrder a c = true := by
  cases d with
  | ascending => exact SortValue.precedes_trans hab hbc
  | descending => exact SortValue.precedes_trans hbc hab

/-! ## The sort -/

/-- Whether two records may stand next to each other in a sorted list. -/
def sortedPair (key : SortKey) (d : Direction) (r s : Record) : Bool :=
  d.inOrder (key.valueOf r) (key.valueOf s)

theorem sortedPair_iff {key : SortKey} {d : Direction} {r s : Record} :
    sortedPair key d r s = true ↔ key.InOrder d r s :=
  inOrder_valueOf_iff key d r s

theorem sortedPair_total (key : SortKey) (d : Direction) (r s : Record) :
    (sortedPair key d r s || sortedPair key d s r) = true := by
  simpa [sortedPair] using d.inOrder_total (key.valueOf r) (key.valueOf s)

theorem sortedPair_trans (key : SortKey) (d : Direction) (r s t : Record)
    (hrs : sortedPair key d r s = true) (hst : sortedPair key d s t = true) :
    sortedPair key d r t = true :=
  Direction.inOrder_trans hrs hst

/-- Sorting the values along with the records is sorting the records. -/
theorem sortByKey_eq_mergeSort (key : SortKey) (d : Direction) (records : List Record) :
    sortByKey key d records = records.mergeSort (sortedPair key d) := by
  have hmap : (records.mergeSort (sortedPair key d)).map (fun r => (key.valueOf r, r))
      = (records.map fun r => (key.valueOf r, r)).mergeSort fun a b => d.inOrder a.1 b.1 :=
    List.map_mergeSort fun _ _ _ _ => rfl
  rw [sortByKey, ← hmap, List.map_map]
  exact List.map_id _

theorem sortByKey_perm (key : SortKey) (d : Direction) (records : List Record) :
    (sortByKey key d records).Perm records := by
  rw [sortByKey_eq_mergeSort]
  exact List.mergeSort_perm _ _

/-- The records come out in the order of the key. -/
theorem pairwise_sortByKey (key : SortKey) (d : Direction) (records : List Record) :
    (sortByKey key d records).Pairwise (key.InOrder d) := by
  rw [sortByKey_eq_mergeSort]
  have hsorted := List.pairwise_mergeSort (sortedPair_trans key d) (sortedPair_total key d) records
  exact hsorted.imp sortedPair_iff.mp

/-- A pair that is in order is not turned around. -/
theorem pair_sublist_sortByKey {key : SortKey} {d : Direction} {records : List Record}
    {r s : Record} (h : key.InOrder d r s) (hsub : [r, s].Sublist records) :
    [r, s].Sublist (sortByKey key d records) := by
  rw [sortByKey_eq_mergeSort]
  exact List.pair_sublist_mergeSort (sortedPair_trans key d) (sortedPair_total key d)
    (sortedPair_iff.mpr h) hsub

section Filter

variable {α : Type} {le : α → α → Bool}

/-- A stable sort puts an item right after those of the sorted others that must come before it. -/
private theorem mergeSort_cons_eq_filter (trans : ∀ a b c, le a b = true → le b c = true → le a c = true)
    (total : ∀ a b, (le a b || le b a) = true) (a : α) (items : List α) :
    (a :: items).mergeSort le
        = (items.mergeSort le).filter (fun b => !le a b)
          ++ a :: (items.mergeSort le).filter (fun b => le a b) ∧
      items.mergeSort le
        = (items.mergeSort le).filter (fun b => !le a b)
          ++ (items.mergeSort le).filter (fun b => le a b) := by
  obtain ⟨before, after, hcons, hitems, hbefore⟩ := List.mergeSort_cons trans total a items
  -- What stands after `a` is what `a` may stand before, as the whole is sorted.
  have hafter : ∀ b ∈ after, le a b = true := by
    have hsorted := List.pairwise_mergeSort trans total (a :: items)
    rw [hcons] at hsorted
    exact (List.pairwise_cons.mp (List.pairwise_append.mp hsorted).2.1).1
  have hnone : (before ++ after).filter (fun b => !le a b) = before := by
    have hnil : after.filter (fun b => !le a b) = [] :=
      List.filter_eq_nil_iff.mpr fun b hb => by simp [hafter b hb]
    rw [List.filter_append, List.filter_eq_self.mpr hbefore, hnil, List.append_nil]
  have hall : (before ++ after).filter (fun b => le a b) = after := by
    have hnil : before.filter (fun b => le a b) = [] :=
      List.filter_eq_nil_iff.mpr fun b hb => by simpa using hbefore b hb
    rw [List.filter_append, List.filter_eq_self.mpr hafter, hnil, List.nil_append]
  rw [hcons, hitems, hnone, hall]
  exact ⟨rfl, rfl⟩

theorem filter_mergeSort (trans : ∀ a b c, le a b = true → le b c = true → le a c = true)
    (total : ∀ a b, (le a b || le b a) = true) (keep : α → Bool) (items : List α) :
    (items.mergeSort le).filter keep = (items.filter keep).mergeSort le := by
  induction items with
  | nil => simp
  | cons a items ih =>
    obtain ⟨hcons, hitems⟩ := mergeSort_cons_eq_filter trans total a items
    by_cases ha : keep a = true
    · -- In both lists `a` stands where its order with the others puts it.
      obtain ⟨hkept, -⟩ := mergeSort_cons_eq_filter trans total a (items.filter keep)
      rw [List.filter_cons_of_pos ha, hkept, hcons, List.filter_append, List.filter_cons_of_pos ha,
        ← ih]
      simp only [List.filter_filter, Bool.and_comm]
    · rw [List.filter_cons_of_neg ha, hcons, List.filter_append, List.filter_cons_of_neg ha,
        ← List.filter_append, ← hitems, ih]

end Filter

/-- Records may be left out before the sort or after it. -/
theorem filter_sortByKey (key : SortKey) (d : Direction) (keep : Record → Bool)
    (records : List Record) :
    (sortByKey key d records).filter keep = sortByKey key d (records.filter keep) := by
  rw [sortByKey_eq_mergeSort, sortByKey_eq_mergeSort]
  exact filter_mergeSort (sortedPair_trans key d) (sortedPair_total key d) keep records

/-! ## Places -/

/-- Of two different members of a list one stands before the other. -/
private theorem pair_sublist_or_of_mem {α : Type} {l : List α} {a b : α} (hne : a ≠ b) (ha : a ∈ l)
    (hb : b ∈ l) : [a, b].Sublist l ∨ [b, a].Sublist l := by
  induction l with
  | nil => cases ha
  | cons x l ih =>
    rw [List.mem_cons] at ha hb
    rcases ha with rfl | ha
    · have hb : b ∈ l := hb.resolve_left hne.symm
      exact .inl ((List.singleton_sublist.mpr hb).cons_cons a)
    · rcases hb with rfl | hb
      · exact .inr ((List.singleton_sublist.mpr ha).cons_cons b)
      · exact (ih ha hb).imp (·.cons _) (·.cons _)

/-- In a list without repetition no two members stand before each other. -/
private theorem not_pair_sublist_swap {α : Type} {l : List α} {a b : α} (hnodup : l.Nodup)
    (hab : [a, b].Sublist l) : ¬ [b, a].Sublist l := by
  induction l with
  | nil => cases hab
  | cons x l ih =>
    obtain ⟨hx, hl⟩ := List.nodup_cons.mp hnodup
    intro hba
    cases hab with
    | cons _ hab =>
      cases hba with
      | cons _ hba => exact ih hl hab hba
      | cons_cons _ _ => exact hx (hab.subset (by simp))
    | cons_cons _ hb =>
      cases hba with
      | cons _ hba => exact hx (hba.subset (by simp))
      | cons_cons _ _ => exact hx (hb.subset (by simp))

/-- Members of a part of a list stand as they do in the list. -/
theorem pair_sublist_iff_of_sublist {α : Type} {part l : List α} {a b : α} (hpart : part.Sublist l)
    (hnodup : l.Nodup) (ha : a ∈ part) (hb : b ∈ part) :
    [a, b].Sublist part ↔ [a, b].Sublist l := by
  refine ⟨(·.trans hpart), fun hab => ?_⟩
  have hne : a ≠ b := List.pairwise_iff_forall_sublist.mp hnodup hab
  refine (pair_sublist_or_of_mem hne ha hb).resolve_right fun hba => ?_
  exact not_pair_sublist_swap hnodup hab (hba.trans hpart)

/-- Two records between which a key does not decide stand as they did before the sort. -/
theorem pair_sublist_sortByKey_iff {key : SortKey} {d : Direction} {records : List Record}
    {r s : Record} (hnodup : records.Nodup) (hr : r ∈ records) (hs : s ∈ records)
    (hrs : key.Le r s) (hsr : key.Le s r) :
    [r, s].Sublist (sortByKey key d records) ↔ [r, s].Sublist records := by
  have hnodup' : (sortByKey key d records).Nodup :=
    (sortByKey_perm key d records).nodup_iff.mpr hnodup
  have horder : key.InOrder d r s ∧ key.InOrder d s r := by cases d <;> exact ⟨‹_›, ‹_›⟩
  refine ⟨fun hsorted => ?_, pair_sublist_sortByKey horder.1⟩
  have hne : r ≠ s := List.pairwise_iff_forall_sublist.mp hnodup' hsorted
  refine (pair_sublist_or_of_mem hne hr hs).resolve_right fun hswap => ?_
  exact not_pair_sublist_swap hnodup' hsorted (pair_sublist_sortByKey horder.2 hswap)

end Roster
