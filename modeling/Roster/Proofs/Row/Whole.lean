import Roster.Proofs.Column.Resolution
import Roster.Proofs.Json.Pruning
import Roster.Proofs.Row.Nest

/-!
# Whole rows

The nested row of a record is written part by part, and its flat row column by column.

- **Slots** (`slotFields`): a part writes those of its named slots that are present. Without empty
  objects it nests what the slots nest (`nests_slotFields`).
- **Parts** (`Geo.nests_fields`, `Address.nests_fields`, `Company.nests_fields`): the object of a part
  nests what names lead to inside the part, and so does the row of the record
  (`Record.nests_pruned_row`).
- **Both rows** (`Record.same_nest_flat_pruned`): they are the same up to the order of fields.
-/

namespace Roster

open Json

/-! ## Slots -/

/-- The fields of the named slots that are present. -/
def slotFields (slots : List (String × Option Json)) : List (String × Json) :=
  Fields.filterMap id slots

private theorem slotFields_append (slots others : List (String × Option Json)) :
    slotFields (slots ++ others) = slotFields slots ++ slotFields others :=
  List.filterMap_append

private theorem textField_eq (name : String) (text : Option String) :
    textField name text = slotFields [(name, text.map .string)] := by
  cases text <;> rfl

private theorem objectField_eq {α : Type} (name : String) (fields : α → List (String × Json))
    (part : Option α) :
    objectField name fields part = slotFields [(name, part.map fun a => .object (fields a))] := by
  cases part <;> rfl

theorem nodup_keys_slotFields {slots : List (String × Option Json)} (hnodup : (Fields.keys slots).Nodup) :
    (Fields.keys (slotFields slots)).Nodup :=
  hnodup.sublist (Fields.keys_filterMap_sublist id slots)

/-- Every slot nests what there is below its name, and there is nothing below other names. -/
structure NestSlots (values : PathValues) (slots : List (String × Option Json)) : Prop where
  root : values [] = none
  nodup : (Fields.keys slots).Nodup
  nests : ∀ slot ∈ slots, Nests (values.below slot.1) (slot.2.bind pruned?)
  covers : ∀ key path, values (key :: path) ≠ none → key ∈ Fields.keys slots

section Slots

variable {values : PathValues} {slots : List (String × Option Json)}

theorem NestSlots.nests_key (h : NestSlots values slots) (key : String) :
    Nests (values.below key) ((Fields.get? key (slotFields slots)).bind pruned?) := by
  rw [slotFields, Fields.get?_filterMap h.nodup]
  cases hslot : Fields.get? key slots with
  | some slot => exact h.nests (key, slot) (Fields.mem_of_get? hslot)
  | none =>
    have hkey : key ∉ Fields.keys slots := Fields.get?_eq_none_iff.mp hslot
    exact .absent fun path => by_contra fun hvalue => hkey (h.covers key path hvalue)

theorem NestSlots.nests_object (h : NestSlots values slots) :
    Nests values (pruned? (.object (slotFields slots))) :=
  nests_pruned?_object h.root (nodup_keys_slotFields h.nodup) h.nests_key

/-- A slot with a text nests it. -/
theorem nests_text (text : Option String)
    (hroot : values [] = (text.map FieldValue.text).map FieldValue.json)
    (hbelow : ∀ key path, values (key :: path) = none) :
    Nests values ((text.map Json.string).bind pruned?) := by
  have hbelow' (path : List String) (hpath : path ≠ []) : values path = none := by
    obtain ⟨key, path, rfl⟩ := List.exists_cons_of_ne_nil hpath
    exact hbelow key path
  cases text with
  | some s => exact .leaf hroot hbelow'
  | none =>
    refine .absent fun path => ?_
    by_cases hpath : path = []
    · rw [hpath, hroot]
      rfl
    · exact hbelow' path hpath

end Slots

/-- A slot with a part nests what the part nests, and nothing without one. -/
theorem nests_part {α : Type} {fields : α → List (String × Json)}
    {value? : α → List String → Option FieldValue}
    (h : ∀ a, Nests (fun names => (value? a names).map FieldValue.json) (pruned? (.object (fields a))))
    (part : Option α) :
    Nests (fun names => (part.bind fun a => value? a names).map FieldValue.json)
      ((part.map fun a => Json.object (fields a)).bind pruned?) := by
  cases part with
  | none => exact .absent fun _ => rfl
  | some a => exact h a

/-! ## Parts -/

theorem Geo.nests_fields (g : Geo) :
    Nests (fun names => (g.fieldAt? names).map FieldValue.json) (pruned? (.object g.fields)) := by
  simp only [fields, textField_eq, ← slotFields_append]
  refine NestSlots.nests_object ⟨rfl, by simp, ?_, ?_⟩
  · simp only [List.cons_append, List.nil_append, List.forall_mem_cons, List.not_mem_nil,
      false_imp_iff, forall_const, and_true]
    refine ⟨nests_text g.lat ?_ ?_, nests_text g.lng ?_ ?_⟩ <;> intros <;> rfl
  · intro key path hvalue
    unfold fieldAt? at hvalue
    split at hvalue <;> simp_all

theorem Address.nests_fields (a : Address) :
    Nests (fun names => (a.fieldAt? names).map FieldValue.json) (pruned? (.object a.fields)) := by
  simp only [fields, textField_eq, objectField_eq, ← slotFields_append]
  refine NestSlots.nests_object ⟨rfl, by simp, ?_, ?_⟩
  · simp only [List.cons_append, List.nil_append, List.forall_mem_cons, List.not_mem_nil,
      false_imp_iff, forall_const, and_true]
    refine ⟨nests_text a.street ?_ ?_, nests_text a.suite ?_ ?_, nests_text a.city ?_ ?_,
      nests_text a.zipcode ?_ ?_, nests_part Geo.nests_fields a.geo⟩ <;> intros <;> rfl
  · intro key path hvalue
    unfold fieldAt? at hvalue
    split at hvalue <;> simp_all

theorem Company.nests_fields (c : Company) :
    Nests (fun names => (c.fieldAt? names).map FieldValue.json) (pruned? (.object c.fields)) := by
  simp only [fields, textField_eq, ← slotFields_append]
  refine NestSlots.nests_object ⟨rfl, by simp, ?_, ?_⟩
  · simp only [List.cons_append, List.nil_append, List.forall_mem_cons, List.not_mem_nil,
      false_imp_iff, forall_const, and_true]
    refine ⟨nests_text c.name ?_ ?_, nests_text c.catchPhrase ?_ ?_, nests_text c.bs ?_ ?_⟩ <;>
      intros <;> rfl
  · intro key path hvalue
    unfold fieldAt? at hvalue
    split at hvalue <;> simp_all

/-! ## Records -/

namespace Record

/-- The values of a record at the ends of names. -/
def leafValues (r : Record) : PathValues :=
  fun names => (r.fieldAt? names).map FieldValue.json

/-- Names lead to the values of columns only. -/
theorem leafValues_eq_pathValues (r : Record) :
    r.leafValues = Column.pathValues fun c => (r.value? c).map FieldValue.json := by
  funext names
  refine Option.ext fun value => ?_
  simp only [leafValues, Column.pathValues_eq_some_iff, Option.map_eq_some_iff,
    fieldAt?_eq_some_iff]
  constructor
  · rintro ⟨v, ⟨c, rfl, hv⟩, rfl⟩
    exact ⟨c, rfl, v, hv, rfl⟩
  · rintro ⟨c, rfl, v, hv, rfl⟩
    exact ⟨v, ⟨c, rfl, hv⟩, rfl⟩

/-- The slots of a record, in the order in which they are written. -/
def slots (r : Record) : List (String × Option Json) :=
  [("id", some (.int r.id.toInt)), ("name", r.name.map .string),
    ("username", r.username.map .string), ("email", r.email.map .string),
    ("address", r.address.map fun a => .object a.fields), ("phone", r.phone.map .string),
    ("website", r.website.map .string), ("company", r.company.map fun c => .object c.fields)]

theorem fields_eq_slotFields (r : Record) : r.fields = slotFields r.slots := by
  simp only [fields, textField_eq, objectField_eq, List.cons_append, ← slotFields_append]
  rfl

theorem nestSlots_slots (r : Record) : NestSlots r.leafValues r.slots := by
  refine ⟨rfl, by simp [slots], ?_, ?_⟩
  · simp only [slots, List.forall_mem_cons, List.not_mem_nil, false_imp_iff, forall_const, and_true]
    refine ⟨.leaf ?_ ?_, nests_text r.name ?_ ?_, nests_text r.username ?_ ?_,
      nests_text r.email ?_ ?_, nests_part Address.nests_fields r.address, nests_text r.phone ?_ ?_,
      nests_text r.website ?_ ?_, nests_part Company.nests_fields r.company⟩
    · rfl
    · intro path hpath
      cases path with
      | nil => exact absurd rfl hpath
      | cons key path => rfl
    all_goals intros; rfl
  · intro key path hvalue
    unfold leafValues fieldAt? at hvalue
    split at hvalue <;> simp_all [slots]

theorem get?_row (r : Record) (key : String) :
    r.row.get? key = Fields.get? key (slotFields r.slots) := by
  rw [row, fields_eq_slotFields]
  exact Row.get?_ofFields_of_nodup (nodup_keys_slotFields r.nestSlots_slots.nodup)

theorem nests_pruned_row (r : Record) : r.row.pruned.Nests r.leafValues := by
  intro key
  rw [Row.get?_pruned, get?_row]
  exact r.nestSlots_slots.nests_key key

theorem nests_nest_flatRow (r : Record) : r.flatRow.nest.Nests r.leafValues := by
  rw [leafValues_eq_pathValues, ← Column.among_all]
  exact Row.nests_nest_ofColumns Column.all r.value?

/-- **Flat and nested rows carry the same data.** The flat row with all columns, nested again, is the
nested row without its empty objects, up to the order of fields. -/
theorem same_nest_flat_pruned (r : Record) :
    (r.project none .flat).nest.Same (r.project none .nested).pruned :=
  r.nests_nest_flatRow.same r.nests_pruned_row

end Record

end Roster
