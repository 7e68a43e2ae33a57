import Mathlib.Data.Finset.Card
import Roster.Proofs.Statistics.Tally

/-!
# The most common texts

The texts of a tally are listed from the greatest count down, and of equal counts the one that was
added first stands first. `IsMostCommon` says what a list of the most common texts is, by counts and
first places in the texts that were added, and `isMostCommon_mostCommon` that `mostCommon` lists
them.

- **Places** (`pairwise_idxOf_entries`): a tally has its texts in the order of their first places.
- **The sort** (`pairwise_mergeSort_of_tie`): a stable sort keeps what stood in order before, where
  the comparison does not decide. So the sorted entries are in order (`pairwise_sortedEntries`).
- **The cut** (`standsBefore_of_notMem`): what is left out comes after all that is listed.
-/

namespace Roster

open Text

/-- Items of which each may stand before the other keep their order in a stable sort. -/
theorem pairwise_mergeSort_of_tie {α : Type} {le : α → α → Bool} {before : α → α → Prop}
    (trans : ∀ a b c, le a b = true → le b c = true → le a c = true)
    (total : ∀ a b, (le a b || le b a) = true) {items : List α} (h : items.Pairwise before) :
    (items.mergeSort le).Pairwise fun a b => le b a = true → before a b := by
  induction items with
  | nil => simp
  | cons a items ih =>
    obtain ⟨hhead, htail⟩ := List.pairwise_cons.mp h
    obtain ⟨smaller, others, hcons, hitems, hsmaller⟩ := List.mergeSort_cons trans total a items
    have hsorted := ih htail
    rw [hitems] at hsorted
    obtain ⟨hsmall, hother, hcross⟩ := List.pairwise_append.mp hsorted
    rw [hcons]
    refine List.pairwise_append.mpr ⟨hsmall, List.pairwise_cons.mpr ⟨?_, hother⟩, ?_⟩
    · intro b hb _
      have hmem : b ∈ items.mergeSort le := hitems ▸ List.mem_append_right smaller hb
      exact hhead b (List.mem_mergeSort.mp hmem)
    · intro b hb c hc
      rcases List.mem_cons.mp hc with rfl | hc
      · -- What goes before the new item may not stand after it.
        intro hle
        have hnot : le c b = false := by simpa using hsmaller b hb
        simp [hnot] at hle
      · exact hcross b hb c hc

/-! ## Counted texts in order -/

/-- Whether one counted text is listed before another one: it has a greater count, or the same one
and was added first. -/
def StandsBefore (texts : List String) (a b : String × Nat) : Prop :=
  b.2 ≤ a.2 ∧ (a.2 = b.2 → texts.idxOf a.1 < texts.idxOf b.1)

/-- What a list of the most common texts is, at most `n` of them. -/
structure IsMostCommon (texts : List String) (n : Nat) (top : List (String × Nat)) : Prop where
  /-- There are `n` of them, or all if there are not so many. -/
  length : top.length = min n texts.toFinset.card
  /-- No text is listed twice. -/
  nodup : (Fields.keys top).Nodup
  /-- What is listed is a text that was added, with the number of times it was. -/
  counted : ∀ s k, (s, k) ∈ top → s ∈ texts ∧ k = texts.count s
  /-- They stand in order. -/
  ordered : top.Pairwise (StandsBefore texts)
  /-- A text that is left out comes after all that are listed. -/
  leftOut : ∀ s ∈ texts, s ∉ Fields.keys top →
    ∀ listed ∈ top, StandsBefore texts listed (s, texts.count s)

namespace Tally

variable {texts : List String} {n : Nat}

/-- The entries of a tally from the greatest count down. -/
def sortedEntries (t : Tally) : List (String × Nat) :=
  t.entries.mergeSort fun a b => Nat.ble b.2 a.2

theorem mostCommon_eq_take (t : Tally) (n : Nat) : t.mostCommon n = t.sortedEntries.take n := rfl

theorem sortedEntries_perm (t : Tally) : t.sortedEntries.Perm t.entries :=
  List.mergeSort_perm _ _

/-- A tally has its texts in the order in which they were first added. -/
theorem pairwise_idxOf_entries (texts : List String) :
    (ofList texts).entries.Pairwise fun a b => texts.idxOf a.1 < texts.idxOf b.1 := by
  have hkeys : (Fields.keys (ofList texts).entries).Pairwise
      fun s t => texts.idxOf s < texts.idxOf t := by
    rw [keys_entries_ofList]
    exact pairwise_idxOf_eraseDups texts
  rwa [Fields.keys, List.pairwise_map] at hkeys

theorem pairwise_sortedEntries (texts : List String) :
    (ofList texts).sortedEntries.Pairwise (StandsBefore texts) := by
  have trans (a b c : String × Nat) (hab : Nat.ble b.2 a.2 = true) (hbc : Nat.ble c.2 b.2 = true) :
      Nat.ble c.2 a.2 = true :=
    Nat.ble_eq.mpr (Nat.le_trans (Nat.ble_eq.mp hbc) (Nat.ble_eq.mp hab))
  have total (a b : String × Nat) : (Nat.ble b.2 a.2 || Nat.ble a.2 b.2) = true := by
    simpa using Nat.le_total b.2 a.2
  have hsorted := List.pairwise_mergeSort trans total (ofList texts).entries
  have htie := pairwise_mergeSort_of_tie trans total (pairwise_idxOf_entries texts)
  refine (hsorted.and htie).imp fun h => ⟨Nat.ble_eq.mp h.1, fun heq => h.2 ?_⟩
  exact Nat.ble_eq.mpr (Nat.le_of_eq heq)

/-- A tally has as many texts as there are different ones. -/
theorem length_entries_ofList (texts : List String) :
    (ofList texts).entries.length = texts.toFinset.card := by
  have hsame : texts.toFinset = texts.eraseDups.toFinset := by
    ext s
    rw [List.mem_toFinset, List.mem_toFinset, List.mem_eraseDups]
  rw [hsame, List.toFinset_card_of_nodup (nodup_eraseDups texts)]
  rw [entries, List.length_map]
  exact size_ofList texts

/-- A counted text that is not among the first ones comes after them. -/
theorem standsBefore_of_notMem {s : String} (hs : s ∈ texts)
    (hnot : s ∉ Fields.keys ((ofList texts).mostCommon n)) {listed : String × Nat}
    (hlisted : listed ∈ (ofList texts).mostCommon n) :
    StandsBefore texts listed (s, texts.count s) := by
  have hmem : (s, texts.count s) ∈ (ofList texts).sortedEntries :=
    (sortedEntries_perm _).mem_iff.mpr (mem_entries_ofList.mpr ⟨hs, rfl⟩)
  have hsorted := pairwise_sortedEntries texts
  rw [← List.take_append_drop n (ofList texts).sortedEntries] at hmem hsorted
  refine (List.pairwise_append.mp hsorted).2.2 listed hlisted _ ?_
  exact (List.mem_append.mp hmem).resolve_left fun h => hnot (List.mem_map_of_mem h)

/-- **A tally lists the most common texts.** Whatever texts were added, `mostCommon n` lists `n`
different ones with their counts, from the greatest count down and in the order of their first
addition where counts are equal, and none that is left out should have been listed before them. -/
theorem isMostCommon_mostCommon (texts : List String) (n : Nat) :
    IsMostCommon texts n ((ofList texts).mostCommon n) where
  length := by
    rw [mostCommon_eq_take, List.length_take, (sortedEntries_perm _).length_eq, length_entries_ofList]
  nodup := by
    have hkeys : (Fields.keys (ofList texts).sortedEntries).Nodup :=
      ((sortedEntries_perm _).map Prod.fst).nodup_iff.mpr ((ofList texts).nodup_keys_entries)
    exact hkeys.sublist ((List.take_sublist n _).map Prod.fst)
  counted := fun _ _ => counted_of_mem_mostCommon
  ordered := (pairwise_sortedEntries texts).sublist (List.take_sublist n _)
  leftOut := fun _ hs hnot _ => standsBefore_of_notMem hs hnot

end Tally

end Roster
