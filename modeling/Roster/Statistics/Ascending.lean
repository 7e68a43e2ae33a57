import Roster.Text.Order

/-!
# Ascending texts

Lists of texts, and of entries with texts as keys, in ascending order and without repetition.

* `insertText` adds a text that is not there.
* `updateEntry` changes the entry of a key, which is made if it is not there.
* `ofTexts` has exactly the texts of a list (`mem_ofTexts`).
-/

namespace Roster.Ascending

/-- Whether the first text comes before the second or is equal to it. -/
def precedes (a b : String) : Bool :=
  Text.precedes a.toList b.toList

/-- The texts with one more, unless it is there. -/
def insertText (s : String) : List String → List String
  | [] => [s]
  | t :: ts =>
    if s = t then t :: ts
    else if precedes s t then s :: t :: ts
    else t :: insertText s ts

/-- The entries with that of a key changed, or made from `none`. -/
def updateEntry {α : Type} (key : String) (change : Option α → α) :
    List (String × α) → List (String × α)
  | [] => [(key, change none)]
  | (k, a) :: entries =>
    if key = k then (k, change (some a)) :: entries
    else if precedes key k then (key, change none) :: (k, a) :: entries
    else (k, a) :: updateEntry key change entries

/-- The texts of a list, ascending and each once. -/
def ofTexts (texts : List String) : List String :=
  texts.foldl (fun sorted s => insertText s sorted) []

theorem mem_insertText {s t : String} {texts : List String} :
    t ∈ insertText s texts ↔ t = s ∨ t ∈ texts := by
  induction texts with
  | nil => simp [insertText]
  | cons u us ih =>
    simp only [insertText]
    split
    · rename_i h
      simp [h]
    · split
      · simp
      · simp only [List.mem_cons, ih]
        exact or_left_comm

/-- The same texts are there as in the list. -/
theorem mem_ofTexts {t : String} {texts : List String} : t ∈ ofTexts texts ↔ t ∈ texts := by
  suffices h : ∀ sorted : List String,
      t ∈ texts.foldl (fun sorted s => insertText s sorted) sorted ↔ t ∈ sorted ∨ t ∈ texts by
    simpa [ofTexts] using h []
  induction texts with
  | nil => simp
  | cons s ss ih =>
    intro sorted
    simp only [List.foldl_cons, ih, mem_insertText, List.mem_cons]
    exact or_assoc.trans or_left_comm

end Roster.Ascending
