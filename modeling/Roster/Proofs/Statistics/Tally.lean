import Roster.Proofs.Json.Lookup
import Roster.Proofs.Text.FirstSeen
import Roster.Statistics.Tally

/-!
# What a tally counts

- **One list** (`entries_add`): a tally keeps an order and counts, and one more text changes both. Side by side
  they are a list of entries, in which the text has one more and comes last if it is new.
- **Lists of texts**: the tally of a list has the different texts of the list in the order of their first sight
  (`keys_entries_ofList`), each with the number of times it stands in the list (`mem_entries_ofList`). What is
  listed as most common is counted like this (`counted_of_mem_mostCommon`).
-/

namespace Roster.Tally

open Text

variable {s : String} {n : Nat} {texts : List String}

/-! ## One list -/

theorem keys_entries (t : Tally) : Fields.keys t.entries = t.order := by
  rw [Fields.keys, entries, List.map_map]
  exact List.map_id _

theorem nodup_keys_entries (t : Tally) : (Fields.keys t.entries).Nodup := by
  rw [keys_entries]
  exact t.nodup

/-- Every count is found in the entries. -/
theorem getD_get?_entries (t : Tally) (s : String) : (Fields.get? s t.entries).getD 0 = t.count s := by
  by_cases hmem : s ∈ t.order
  · have hentry : (s, t.count s) ∈ t.entries := List.mem_map_of_mem hmem
    rw [(Fields.get?_eq_some_iff t.nodup_keys_entries).mpr hentry, Option.getD_some]
  · have hzero : t.count s = 0 := count_eq_zero_iff.mpr hmem
    rw [← keys_entries] at hmem
    rw [Fields.get?_eq_none_iff.mpr hmem, Option.getD_none, hzero]

theorem count_add (t : Tally) (s other : String) :
    (t.add s).count other = if s = other then t.count s + 1 else t.count other := by
  simp [count, add, Std.HashMap.getD_insert]

/-- One more text is one more in the entries, where it comes last if it is new. -/
theorem entries_add (t : Tally) (s : String) :
    (t.add s).entries = Fields.insert s ((Fields.get? s t.entries).getD 0 + 1) t.entries := by
  rw [getD_get?_entries]
  -- Both lists have the same keys in the same order, so the counts decide.
  refine Fields.eq_of_keys ?_ fun _ n m hn hm => ?_
  · rw [keys_entries, Fields.keys_insert, keys_entries]
    exact t.orderWith_eq s
  · obtain ⟨key, -, heq⟩ := List.mem_map.mp hn
    obtain ⟨rfl, rfl⟩ := Prod.mk.inj heq
    have hnodup := Fields.nodup_keys_insert t.nodup_keys_entries s (t.count s + 1)
    have hget := (Fields.get?_eq_some_iff hnodup).mpr hm
    rw [Fields.get?_insert] at hget
    rw [count_add]
    by_cases hsame : s = key
    · rw [if_pos hsame] at hget ⊢
      exact Option.some.inj hget
    · rw [if_neg hsame] at hget ⊢
      rw [← getD_get?_entries, hget, Option.getD_some]

/-! ## Lists of texts -/

theorem ofList_concat (texts : List String) (s : String) :
    ofList (texts ++ [s]) = (ofList texts).add s := by
  rw [ofList, List.foldl_append]
  rfl

/-- The texts that are counted stand in the order of their first sight. -/
theorem keys_entries_ofList (texts : List String) :
    Fields.keys (ofList texts).entries = texts.eraseDups := by
  induction texts using List.reverseRecOn with
  | nil => rfl
  | append_singleton texts s ih =>
    rw [ofList_concat, entries_add, Fields.keys_insert, ih, eraseDups_concat]
    simp only [List.mem_eraseDups]

theorem count_ofList (texts : List String) (s : String) : (ofList texts).count s = texts.count s := by
  induction texts using List.reverseRecOn with
  | nil => exact Std.HashMap.getD_empty
  | append_singleton texts last ih =>
    rw [ofList_concat, count_add, List.count_append, List.count_singleton]
    by_cases h : last = s
    · subst h
      simp [ih]
    · simp [h, ih]

/-- The entries are the different texts of the list, each with the number of times it stands there. -/
theorem entries_ofList (texts : List String) :
    (ofList texts).entries = texts.eraseDups.map fun s => (s, texts.count s) := by
  have horder : (ofList texts).order = texts.eraseDups := by
    rw [← keys_entries, keys_entries_ofList]
  simp only [entries, horder, count_ofList]

/-- A text is counted as often as it stands in the list. -/
theorem mem_entries_ofList : (s, n) ∈ (ofList texts).entries ↔ s ∈ texts ∧ n = texts.count s := by
  rw [entries_ofList, List.mem_map]
  constructor
  · rintro ⟨_, hmem, heq⟩
    obtain ⟨rfl, rfl⟩ := Prod.mk.inj heq
    exact ⟨List.mem_eraseDups.mp hmem, rfl⟩
  · rintro ⟨hmem, rfl⟩
    exact ⟨s, List.mem_eraseDups.mpr hmem, rfl⟩

theorem size_ofList (texts : List String) : (ofList texts).size = texts.eraseDups.length := by
  rw [size, ← keys_entries, keys_entries_ofList]

/-! ## The most common texts -/

theorem mem_of_mem_mostCommon {t : Tally} {entry : String × Nat} (h : entry ∈ t.mostCommon n) :
    entry ∈ t.entries :=
  List.mem_mergeSort.mp (List.mem_of_mem_take h)

/-- What is listed as most common is a text of the list, with the number of times it stands there. -/
theorem counted_of_mem_mostCommon {most : Nat} (h : (s, n) ∈ (ofList texts).mostCommon most) :
    s ∈ texts ∧ n = texts.count s :=
  mem_entries_ofList.mp (mem_of_mem_mostCommon h)

/-- Texts whose counts descend already are listed as they stand. -/
theorem mostCommon_ofList_of_pairwise
    (h : (texts.eraseDups.map fun s => (s, texts.count s)).Pairwise fun a b => b.2 ≤ a.2) (n : Nat) :
    (ofList texts).mostCommon n = (texts.eraseDups.map fun s => (s, texts.count s)).take n := by
  rw [mostCommon, entries_ofList, List.mergeSort_of_pairwise (h.imp Nat.ble_eq.mpr)]

end Roster.Tally
