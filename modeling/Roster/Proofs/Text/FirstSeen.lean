import Mathlib.Data.List.Induction
import Mathlib.Data.List.Nodup

/-!
# The order of first sight

`List.eraseDups` keeps each item of a list at its first place. One more item at the end is kept if
it is new (`eraseDups_concat`), so a list that grows by what is new is what is kept
(`foldl_concat_new`), and no item is kept twice (`nodup_eraseDups`). An item that has stood before makes no
difference anywhere (`eraseDups_append_cons`), and a test may as well come before as after
(`eraseDups_filter`).
-/

namespace Roster.Text

variable {α : Type} [DecidableEq α]

theorem eraseDups_concat (items : List α) (last : α) :
    (items ++ [last]).eraseDups
      = if last ∈ items then items.eraseDups else items.eraseDups ++ [last] := by
  rw [List.eraseDups_append]
  split
  · rename_i h
    have hnone : [last].removeAll items = [] := by simp [List.removeAll, h]
    rw [hnone, List.eraseDups_nil, List.append_nil]
  · rename_i h
    have hlast : [last].removeAll items = [last] := by simp [List.removeAll, h]
    rw [hlast, List.eraseDups_cons, List.filter_nil, List.eraseDups_nil]

theorem nodup_eraseDups (items : List α) : items.eraseDups.Nodup := by
  induction items using List.reverseRecOn with
  | nil => exact .nil
  | append_singleton items last ih =>
    rw [eraseDups_concat]
    split
    · exact ih
    · rename_i h
      rw [← List.concat_eq_append]
      exact ih.concat fun hmem => h (List.mem_eraseDups.mp hmem)

/-- What is kept stands in the order in which it is found in the list. -/
theorem pairwise_idxOf_eraseDups (items : List α) :
    items.eraseDups.Pairwise fun a b => items.idxOf a < items.idxOf b := by
  induction items using List.reverseRecOn with
  | nil => exact .nil
  | append_singleton items last ih =>
    -- One more item at the end moves no first sight.
    have hkept : items.eraseDups.Pairwise
        fun a b => (items ++ [last]).idxOf a < (items ++ [last]).idxOf b := by
      refine ih.imp_of_mem fun ha hb hlt => ?_
      rwa [List.idxOf_append_of_mem (List.mem_eraseDups.mp ha),
        List.idxOf_append_of_mem (List.mem_eraseDups.mp hb)]
    rw [eraseDups_concat]
    split
    · exact hkept
    · rename_i hnew
      refine List.pairwise_append.mpr ⟨hkept, List.pairwise_singleton _ _, fun a ha b hb => ?_⟩
      rw [List.mem_singleton.mp hb, List.idxOf_append_of_mem (List.mem_eraseDups.mp ha),
        List.idxOf_append_of_notMem hnew]
      exact Nat.lt_add_right _ (List.idxOf_lt_length_of_mem (List.mem_eraseDups.mp ha))

/-- Items that are put at the end of a list, unless they are in it already. -/
theorem foldl_concat_new (items : List α) :
    items.foldl (fun seen a => if seen.contains a then seen else seen ++ [a]) []
      = items.eraseDups := by
  induction items using List.reverseRecOn with
  | nil => rfl
  | append_singleton items last ih =>
    rw [List.foldl_append, List.foldl_cons, List.foldl_nil, ih, eraseDups_concat]
    simp only [List.contains_iff_mem, List.mem_eraseDups]

/-- An item that stands in front already is not kept again. -/
theorem eraseDups_append_cons {before : List α} {item : α} (h : item ∈ before) (after : List α) :
    (before ++ item :: after).eraseDups = (before ++ after).eraseDups := by
  have hremoved : (item :: after).removeAll before = after.removeAll before := by
    simp [List.removeAll, h]
  rw [List.eraseDups_append, List.eraseDups_append, hremoved]

theorem eraseDups_filter (test : α → Bool) (items : List α) :
    (items.filter test).eraseDups = items.eraseDups.filter test := by
  induction items using List.reverseRecOn with
  | nil => rfl
  | append_singleton items last ih =>
    rw [List.filter_append, eraseDups_concat]
    by_cases htest : test last = true
    · have hlast : [last].filter test = [last] := by simp [htest]
      rw [hlast, eraseDups_concat, ih]
      by_cases hmem : last ∈ items
      · simp [hmem, htest]
      · simp [hmem, htest]
    · have hlast : [last].filter test = [] := by simp [htest]
      rw [hlast, List.append_nil, ih]
      split
      · rfl
      · rw [List.filter_append, hlast, List.append_nil]

end Roster.Text
