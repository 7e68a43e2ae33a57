/-!
# Named fields in order

A list of names with values, in the order in which the names were first given.

* `get?` finds the value of a name.
* `insert` gives a name a value. A name that is there keeps its place, a new one goes to the end
  (`keys_insert`), and no other name is affected (`get?_insert`).
-/

namespace Roster.Fields

/-- The value of a name. -/
def get? {α : Type} (key : String) : List (String × α) → Option α
  | [] => none
  | (k, v) :: fields => if k = key then some v else get? key fields

/-- The fields with a value for a name. -/
def insert {α : Type} (key : String) (value : α) : List (String × α) → List (String × α)
  | [] => [(key, value)]
  | (k, v) :: fields => if k = key then (k, value) :: fields else (k, v) :: insert key value fields

/-- The names in order. -/
def keys {α : Type} (fields : List (String × α)) : List String :=
  fields.map Prod.fst

variable {α : Type}

@[simp] theorem keys_nil : keys ([] : List (String × α)) = [] := rfl

@[simp] theorem keys_cons (field : String × α) (fields : List (String × α)) :
    keys (field :: fields) = field.1 :: keys fields := rfl

theorem get?_insert (key other : String) (value : α) (fields : List (String × α)) :
    get? other (insert key value fields) = if key = other then some value else get? other fields := by
  induction fields with
  | nil => simp [insert, get?]
  | cons field fields ih =>
    obtain ⟨k, v⟩ := field
    by_cases h : k = key
    · subst h
      by_cases h' : k = other <;> simp [insert, get?, h']
    · by_cases h' : k = other
      · subst h'
        simp [insert, get?, h, Ne.symm h]
      · simp [insert, get?, h, h', ih]

/-- Inserting leaves the names as they are, or puts a new one at their end. -/
theorem keys_insert (key : String) (value : α) (fields : List (String × α)) :
    keys (insert key value fields) = if key ∈ keys fields then keys fields else keys fields ++ [key] := by
  induction fields with
  | nil => simp [insert]
  | cons field fields ih =>
    obtain ⟨k, v⟩ := field
    by_cases h : k = key
    · simp [insert, h]
    · simp only [insert, h, if_false, keys_cons, ih, List.mem_cons, Ne.symm h, false_or]
      split <;> rfl

theorem nodup_keys_insert {fields : List (String × α)} (h : (keys fields).Nodup) (key : String)
    (value : α) : (keys (insert key value fields)).Nodup := by
  rw [keys_insert]
  split
  · exact h
  · rename_i hk
    rw [List.nodup_append]
    exact ⟨h, by simp, by rintro a ha b hb rfl; exact hk (by simp_all)⟩

end Roster.Fields
