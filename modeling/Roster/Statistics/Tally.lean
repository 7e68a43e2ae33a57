import Std.Data.HashMap

/-!
# Tallies

A `Tally` counts how often each text was added and remembers in which order the texts came first.
Counts and order are kept apart, and every tally carries the proof that they go together: the texts
that are remembered are all different, and they are the ones that have been counted.

`mostCommon n` lists the `n` greatest counts from the greatest down; of equal counts the one whose
text came first stands first.
-/

namespace Roster

/-- Texts in the order in which they were first added, and the number of times each was. -/
structure Tally where
  order : List String
  counts : Std.HashMap String Nat
  /-- No text is remembered twice. -/
  nodup : order.Nodup
  /-- A text is remembered exactly if it has been counted. -/
  mem_order_iff : ∀ s, s ∈ order ↔ 0 < counts.getD s 0

namespace Tally

/-- The tally of nothing. -/
def empty : Tally where
  order := []
  counts := ∅
  nodup := .nil
  mem_order_iff := by simp

/-- How often a text was added. -/
def count (t : Tally) (s : String) : Nat :=
  t.counts.getD s 0

/-- The order with one more text, which comes last unless it has been counted already. -/
def orderWith (t : Tally) (s : String) : List String :=
  if t.count s = 0 then t.order ++ [s] else t.order

theorem count_eq_zero_iff {t : Tally} {s : String} : t.count s = 0 ↔ s ∉ t.order := by
  rw [t.mem_order_iff, Nat.not_lt, Nat.le_zero, count]

theorem orderWith_eq (t : Tally) (s : String) :
    t.orderWith s = if s ∈ t.order then t.order else t.order ++ [s] := by
  simp only [orderWith, count_eq_zero_iff, ite_not]

theorem mem_orderWith_iff {t : Tally} {s other : String} :
    other ∈ t.orderWith s ↔ other = s ∨ other ∈ t.order := by
  rw [orderWith_eq]
  split
  · rename_i hmem
    exact ⟨.inr, fun h => h.elim (fun heq => heq ▸ hmem) id⟩
  · rw [List.mem_append, List.mem_singleton, or_comm]

theorem nodup_orderWith (t : Tally) (s : String) : (t.orderWith s).Nodup := by
  rw [orderWith_eq]
  split
  · exact t.nodup
  · rename_i hnew
    refine List.nodup_append.mpr ⟨t.nodup, by simp, fun a ha b hb heq => ?_⟩
    obtain rfl := List.mem_singleton.mp hb
    exact hnew (heq ▸ ha)

/-- The tally with one more text. -/
def add (t : Tally) (s : String) : Tally where
  order := t.orderWith s
  counts := t.counts.insert s (t.count s + 1)
  nodup := t.nodup_orderWith s
  mem_order_iff other := by
    rw [mem_orderWith_iff, Std.HashMap.getD_insert, t.mem_order_iff]
    by_cases hsame : s = other
    · simp [hsame]
    · simp [hsame, Ne.symm hsame]

/-- The tally of a list of texts. -/
def ofList (texts : List String) : Tally :=
  texts.foldl add empty

/-- The number of different texts. -/
def size (t : Tally) : Nat :=
  t.order.length

/-- The texts with their counts, in order. -/
def entries (t : Tally) : List (String × Nat) :=
  t.order.map fun s => (s, t.count s)

/-- The texts with the greatest counts. -/
def mostCommon (t : Tally) (n : Nat) : List (String × Nat) :=
  (t.entries.mergeSort fun a b => Nat.ble b.2 a.2).take n

end Tally

end Roster
