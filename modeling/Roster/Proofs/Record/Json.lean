import Roster.Proofs.Json.Decoding
import Roster.Proofs.Row.Whole

/-!
# Records read back

A record is decoded from the fields that are written of it, whichever of them are absent at whichever
level: `Record.decodes_json`. An absent text leaves no field behind, an empty one a field with the
empty text; an absent part leaves no field behind, and one without parts of its own an object without
fields.

- **Fields** (`fills_textField`, `fills_objectField`): what is written of a text or of a part fills its
  field, also if nothing is.
- **Rows** (`Record.json_row`): the row of a record is what is written of it.
- **Lists** (`Record.decodes_array`): a list of records is read from its JSON, as a value or as a text.
-/

namespace Roster

open Decoder Json

/-! ## Fields -/

section Fields

variable {α σ : Type} {fields : List (Decoder.Field σ)} {written : List (String × Json)} {s t : σ}

/-- What is written of a text fills a field that holds none yet. -/
theorem fills_textField {name : String} {set : σ → Option String → σ} (hnone : set s none = s)
    (text : Option String) (h : Fills fields written (set s text) t) :
    Fills (field name (optional string) set :: fields) (textField name text ++ written) s t := by
  cases text with
  | none =>
    rw [hnone] at h
    exact .skip (by simp [field]) h
  | some x =>
    have htext : Decodes (optional string) (.string x) (some x) :=
      decodes_optional decodes_string (by simp) (some x)
    exact .read (decodes_field htext name set s) h

/-- What is written of a part fills a field that holds none yet. -/
theorem fills_objectField {name : String} {set : σ → Option α → σ} {decoder : Decoder α}
    {fieldsOf : α → List (String × Json)} (hpart : ∀ a, Decodes decoder (.object (fieldsOf a)) a)
    (hnone : set s none = s) (part : Option α) (h : Fills fields written (set s part) t) :
    Fills (field name (optional decoder) set :: fields) (objectField name fieldsOf part ++ written)
      s t := by
  cases part with
  | none =>
    rw [hnone] at h
    exact .skip (by simp [field]) h
  | some a =>
    have hobject : Decodes (optional decoder) (.object (fieldsOf a)) (some a) :=
      decodes_optional hpart (by simp) (some a)
    exact .read (decodes_field hobject name set s) h

end Fields

theorem decodes_int64 (n : Int64) : Decodes int64 (.int n.toInt) n := by
  have h := (decodes_integer ⟨n.minValue_le_toInt, n.toInt_le⟩).map Int64.ofInt
  rwa [Int64.ofInt_toInt] at h

theorem Geo.decodes_fields (g : Geo) : Decodes Geo.decoder (.object g.fields) g := by
  have hfields : g.fields = textField "lat" g.lat ++ (textField "lng" g.lng ++ []) := by
    simp [fields]
  rw [hfields]
  refine decodes_record (by decide) ?_
  exact fills_textField rfl g.lat <| fills_textField rfl g.lng <| .nil g

theorem Address.decodes_fields (a : Address) : Decodes Address.decoder (.object a.fields) a := by
  have hfields : a.fields = textField "street" a.street ++ (textField "suite" a.suite ++
      (textField "city" a.city ++ (textField "zipcode" a.zipcode ++
        (objectField "geo" Geo.fields a.geo ++ [])))) := by
    simp [fields]
  rw [hfields]
  refine decodes_record (by decide) ?_
  exact fills_textField rfl a.street <| fills_textField rfl a.suite <| fills_textField rfl a.city <|
    fills_textField rfl a.zipcode <| fills_objectField Geo.decodes_fields rfl a.geo <| .nil a

theorem Company.decodes_fields (c : Company) : Decodes Company.decoder (.object c.fields) c := by
  have hfields : c.fields = textField "name" c.name ++ (textField "catchPhrase" c.catchPhrase ++
      (textField "bs" c.bs ++ [])) := by
    simp [fields]
  rw [hfields]
  refine decodes_record (by decide) ?_
  exact fills_textField rfl c.name <| fills_textField rfl c.catchPhrase <|
    fills_textField rfl c.bs <| .nil c

/-- A record is decoded from what is written of it. -/
theorem Record.decodes_json (r : Record) : Decodes Record.decoder r.json r := by
  have hfields : r.fields = ("id", .int r.id.toInt) :: (textField "name" r.name ++
      (textField "username" r.username ++ (textField "email" r.email ++
        (objectField "address" Address.fields r.address ++ (textField "phone" r.phone ++
          (textField "website" r.website ++
            (objectField "company" Company.fields r.company ++ []))))))) := by
    simp [fields]
  rw [json, hfields]
  refine decodes_record (by decide) (.read ((decodes_int64 r.id).map _) ?_)
  exact fills_textField rfl r.name <| fills_textField rfl r.username <|
    fills_textField rfl r.email <| fills_objectField Address.decodes_fields rfl r.address <|
    fills_textField rfl r.phone <| fills_textField rfl r.website <|
    fills_objectField Company.decodes_fields rfl r.company <| .nil r

/-! ## Rows -/

/-- The row of a record is what is written of it. -/
theorem Record.json_row (r : Record) : r.row.json = r.json := by
  have hnodup : (Fields.keys r.fields).Nodup := by
    rw [fields_eq_slotFields]
    exact nodup_keys_slotFields r.nestSlots_slots.nodup
  rw [Row.json, row, Row.fields_ofFields_of_nodup hnodup, json]

/-! ## Lists -/

theorem isExact_int64 (n : Int64) : IsExact (.int n.toInt) := by
  have hleast := n.le_toInt
  have hgreatest := n.toInt_lt
  have hsize : (UInt64.size : Int) = 0x10000000000000000 := rfl
  exact .integer ⟨by omega, by omega⟩

theorem isExact_textField {name : String} {text : Option String} :
    ∀ field ∈ textField name text, IsExact field.2 := by
  cases text with
  | none => simp [textField]
  | some s => simpa [textField] using IsExact.string s

theorem isExact_objectField {α : Type} {name : String} {fieldsOf : α → List (String × Json)}
    (h : ∀ a, ∀ field ∈ fieldsOf a, IsExact field.2) {part : Option α} :
    ∀ field ∈ objectField name fieldsOf part, IsExact field.2 := by
  cases part with
  | none => simp [objectField]
  | some a => simpa [objectField] using IsExact.object (h a)

theorem Geo.isExact_fields (g : Geo) : ∀ field ∈ g.fields, IsExact field.2 := by
  simp only [fields, List.forall_mem_append]
  exact ⟨isExact_textField, isExact_textField⟩

theorem Address.isExact_fields (a : Address) : ∀ field ∈ a.fields, IsExact field.2 := by
  simp only [fields, List.forall_mem_append]
  exact ⟨⟨⟨⟨isExact_textField, isExact_textField⟩, isExact_textField⟩, isExact_textField⟩,
    isExact_objectField Geo.isExact_fields⟩

theorem Company.isExact_fields (c : Company) : ∀ field ∈ c.fields, IsExact field.2 := by
  simp only [fields, List.forall_mem_append]
  exact ⟨⟨isExact_textField, isExact_textField⟩, isExact_textField⟩

theorem Record.isExact_json (r : Record) : IsExact r.json := by
  refine .object ?_
  simp only [fields, List.forall_mem_append, List.forall_mem_cons]
  exact ⟨⟨⟨⟨⟨⟨⟨isExact_int64 r.id, isExact_textField⟩, isExact_textField⟩, isExact_textField⟩,
    isExact_objectField Address.isExact_fields⟩, isExact_textField⟩, isExact_textField⟩,
    isExact_objectField Company.isExact_fields⟩

/-- A list of records is decoded from the array of what is written of them, as a value and as a
text. -/
theorem Record.decodes_array (records : List Record) :
    (list Record.decoder).ofJson (.array (records.map json)) = .ok records ∧
      (list Record.decoder).ofText (Json.array (records.map json)).compact = .ok records := by
  have hdecodes := decodes_list Record.decodes_json records
  have hexact : IsExact (.array (records.map json)) := by
    refine .array fun item hitem => ?_
    obtain ⟨r, -, rfl⟩ := List.mem_map.mp hitem
    exact r.isExact_json
  exact ⟨ofJson_of_decodes hdecodes, ofText_compact hexact hdecodes⟩

end Roster
