import Roster.Proofs.Json.Nesting

/-!
# Without empty objects

`Json.pruned?` leaves out the empty objects inside a value, from the inside out: an object that only
had empty objects is left out with them. Values inside arrays are kept as they are. A row is never
left out itself (`Row.pruned`).

What is left under a name is the pruned value of the name (`Fields.get?_prunedFields`), so a pruned
object nests what its pruned fields nest (`Json.nests_pruned?_object`).
-/

namespace Roster

namespace Json

mutual

/-- The value without the empty objects inside it, or nothing if it has nothing else. -/
def pruned? : Json → Option Json
  | .object fields =>
    match prunedFields fields with
    | [] => none
    | field :: kept => some (.object (field :: kept))
  | .null => some .null
  | .bool b => some (.bool b)
  | .number n => some (.number n)
  | .string s => some (.string s)
  | .array items => some (.array items)

/-- The fields without the empty objects in them. -/
def prunedFields : List (String × Json) → List (String × Json)
  | [] => []
  | (key, value) :: fields =>
    match pruned? value with
    | some kept => (key, kept) :: prunedFields fields
    | none => prunedFields fields

end

theorem prunedFields_eq_filterMap (fields : List (String × Json)) :
    prunedFields fields = Fields.filterMap pruned? fields := by
  induction fields with
  | nil => rfl
  | cons field fields ih =>
    rw [prunedFields]
    cases hkept : pruned? field.2 with
    | none => rw [Fields.filterMap_cons_none hkept, ih]
    | some kept => rw [Fields.filterMap_cons_some hkept, ih]

theorem keys_prunedFields_sublist (fields : List (String × Json)) :
    (Fields.keys (prunedFields fields)).Sublist (Fields.keys fields) := by
  rw [prunedFields_eq_filterMap]
  exact Fields.keys_filterMap_sublist pruned? fields

theorem get?_prunedFields {fields : List (String × Json)} (hnodup : (Fields.keys fields).Nodup)
    (key : String) :
    Fields.get? key (prunedFields fields) = (Fields.get? key fields).bind pruned? := by
  rw [prunedFields_eq_filterMap, Fields.get?_filterMap hnodup]

/-- A pruned object nests what its pruned fields nest. -/
theorem nests_pruned?_object {values : PathValues} {fields : List (String × Json)}
    (hroot : values [] = none) (hnodup : (Fields.keys fields).Nodup)
    (hfields : ∀ key, Nests (values.below key) ((Fields.get? key fields).bind pruned?)) :
    Nests values (pruned? (.object fields)) := by
  have hkept (key : String) : Nests (values.below key) (Fields.get? key (prunedFields fields)) := by
    rw [get?_prunedFields hnodup]
    exact hfields key
  have hsublist := keys_prunedFields_sublist fields
  rw [pruned?]
  -- Whether fields are left decides whether the object itself is.
  revert hkept hsublist
  cases prunedFields fields with
  | nil =>
    intro hkept _
    refine .absent fun path => ?_
    cases path with
    | nil => exact hroot
    | cons key path => exact (hkept key).values_eq_none path
  | cons field kept =>
    intro hkept hsublist
    exact .object hroot (List.cons_ne_nil field kept) (hnodup.sublist hsublist) hkept

end Json

namespace Row

/-- The row without the empty objects in its fields. -/
def pruned (row : Row) : Row :=
  ⟨Json.prunedFields row.fields, row.nodup.sublist (Json.keys_prunedFields_sublist row.fields)⟩

theorem get?_pruned (key : String) (row : Row) :
    row.pruned.get? key = (row.get? key).bind Json.pruned? :=
  Json.get?_prunedFields row.nodup key

end Row

/-- An object with nothing but an empty object is left out too. -/
example : Json.prunedFields
    [("id", .int 1), ("address", .object [("geo", .object [])]), ("name", .string "")]
      = [("id", .int 1), ("name", .string "")] := rfl

end Roster
