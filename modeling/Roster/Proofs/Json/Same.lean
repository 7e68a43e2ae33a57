import Roster.Proofs.Json.Lookup

/-!
# Equal up to the order of fields

`Json.Same` is the equality of JSON values: the fields of an object are compared by their names,
whatever their order, at every depth.

Objects with different names are the same as soon as every name has the same value in both of them
(`Json.Same.of_get?`).
-/

namespace Roster

/-- Equality up to the order in which objects have their fields. -/
inductive Json.Same : Json → Json → Prop
  | refl (value : Json) : Same value value
  | array {items others : List Json} (hlength : items.length = others.length)
      (hitems : ∀ (i : Nat) (item other : Json),
        items[i]? = some item → others[i]? = some other → Same item other) :
      Same (.array items) (.array others)
  | object {fields others : List (String × Json)}
      (hkeys : (Fields.keys fields).Perm (Fields.keys others))
      (hvalues : ∀ (key : String) (value other : Json),
        (key, value) ∈ fields → (key, other) ∈ others → Same value other) :
      Same (.object fields) (.object others)

/-- Equality of rows up to the order of fields, at every depth. -/
def Row.Same (row other : Row) : Prop :=
  row.json.Same other.json

theorem isSome_eq_of_rel {α β : Type} {r : α → β → Prop} {a : Option α} {b : Option β}
    (h : Option.Rel r a b) : a.isSome = b.isSome := by
  cases h <;> rfl

theorem Json.Same.of_get? {fields others : List (String × Json)}
    (hfields : (Fields.keys fields).Nodup) (hothers : (Fields.keys others).Nodup)
    (h : ∀ key, Option.Rel Json.Same (Fields.get? key fields) (Fields.get? key others)) :
    Json.Same (.object fields) (.object others) := by
  refine .object ((List.perm_ext_iff_of_nodup hfields hothers).mpr fun key => ?_)
    fun key value other hvalue hother => ?_
  · rw [← Fields.isSome_get?_iff, ← Fields.isSome_get?_iff, isSome_eq_of_rel (h key)]
  · have hkey := h key
    rw [(Fields.get?_eq_some_iff hfields).mpr hvalue,
      (Fields.get?_eq_some_iff hothers).mpr hother] at hkey
    cases hkey with
    | some hsame => exact hsame

theorem Row.Same.of_get? {row other : Row}
    (h : ∀ key, Option.Rel Json.Same (row.get? key) (other.get? key)) : row.Same other :=
  Json.Same.of_get? row.nodup other.nodup h

end Roster
