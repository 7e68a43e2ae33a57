import Roster.Json.Decode
import Roster.Proofs.Json.Reading

/-!
# Values decoded

`Decodes decoder j a`: the decoder takes the value `a` where the events of `j` come first, and
leaves what follows them.

- **Parts**: texts, words, members of an enumeration, values that may be missing
  (`decodes_optional`) and lists (`decodes_list`).
- **Structures** (`decodes_record`): the fields that are written of a structure, in their order and
  perhaps with gaps (`Fills`), are taken one after the other.
- **Texts** (`ofTextStart_compact`, `ofText_compact`): from the text of a value on one line the same
  is decoded.
-/

namespace Roster.Decoder

open Json

variable {α β σ : Type} {decoder : Decoder α} {j : Json} {a : α}

/-- Whether a decoder takes a value where the events of a JSON value come first. -/
def Decodes (decoder : Decoder α) (j : Json) (a : α) : Prop :=
  ∀ rest, decoder (j.events ++ rest) = .ok (a, rest)

theorem bind_eq_ok {second : α → Decoder β} {events rest : List JsonEvent}
    (h : decoder events = .ok (a, rest)) : (decoder >>= second) events = second a rest := by
  change Decoder.bind decoder second events = _
  rw [Decoder.bind, h]
  rfl

theorem Decodes.map (h : Decodes decoder j a) (f : α → β) :
    Decodes (do return f (← decoder)) j (f a) :=
  fun rest => bind_eq_ok (h rest)

/-! ## Parts -/

theorem decodes_string (s : String) : Decodes string (.string s) s :=
  fun _ => rfl

theorem decodes_integer {least greatest n : Int} (h : least ≤ n ∧ n ≤ greatest) :
    Decodes (integer least greatest) (.int n) n := by
  intro rest
  have hnext : next ((Json.int n).events ++ rest) = .ok (.number (some (.integer n)), rest) := rfl
  rw [integer, bind_eq_ok hnext]
  exact congrFun (if_pos h) rest

theorem decodes_natural {bound n : Nat} (h : n < bound) : Decodes (natural bound) (.nat n) n :=
  (decodes_integer ⟨by omega, by omega⟩).map Int.toNat

theorem decodes_uint32 (n : UInt32) : Decodes uint32 (.nat n.toNat) n := by
  have h := (decodes_natural n.toNat_lt).map UInt32.ofNat
  rwa [UInt32.ofNat_toNat] at h

theorem decodes_member {members : List (String × α)} {name : String}
    (h : members.lookup name = some a) : Decodes (member members) (.string name) a := by
  intro rest
  have hnext : next ((Json.string name).events ++ rest) = .ok (.string (some name), rest) := rfl
  rw [member, bind_eq_ok hnext]
  change named members name rest = _
  rw [named, h]
  rfl

/-- A value that is not `null` is taken as one that is not missing. -/
theorem decodes_optional {encode : α → Json} (h : ∀ a, Decodes decoder (encode a) a)
    (hnull : ∀ a, encode a ≠ .null) (x : Option α) :
    Decodes (optional decoder) (Json.optional encode x) x := by
  intro rest
  cases x with
  | none => rfl
  | some a =>
    -- Whether there is a value is told by its first event.
    have hfirst : ∀ events, (encode a).events ++ rest ≠ .null :: events := by
      cases henc : encode a with
      | null => exact absurd henc (hnull a)
      | _ => simp [events]
    rw [Json.optional, optional.eq_def]
    split
    · rename_i events heq
      exact absurd heq (hfirst events)
    · rw [h a rest]
      rfl

/-- No value starts with the end of an array. -/
private theorem events_append_ne_endArray (j : Json) (rest events : List JsonEvent) :
    j.events ++ rest ≠ .endArray :: events := by
  cases j <;> simp [Json.events]

private theorem length_le_length_itemEvents (js : List Json) : js.length ≤ (itemEvents js).length := by
  induction js with
  | nil => exact Nat.le_refl 0
  | cons j js ih =>
    have hpos : 0 < j.events.length := by
      cases j <;> simp [Json.events]
    simp only [itemEvents, List.length_append, List.length_cons]
    omega

private theorem items_succ_of_decodes (h : Decodes decoder j a) (fuel : Nat) (read : List α)
    (rest : List JsonEvent) :
    items decoder (fuel + 1) read (j.events ++ rest) = items decoder fuel (a :: read) rest := by
  rw [items, h rest]
  · rfl
  · exact events_append_ne_endArray j rest

/-- Items are taken up to the end of their array. -/
theorem items_itemEvents {encode : α → Json} (h : ∀ a, Decodes decoder (encode a) a)
    (as read : List α) {fuel : Nat} (hfuel : as.length < fuel) (rest : List JsonEvent) :
    items decoder fuel read (itemEvents (as.map encode) ++ .endArray :: rest)
      = .ok (read.reverse ++ as, rest) := by
  induction as generalizing read fuel with
  | nil =>
    obtain ⟨fuel, rfl⟩ := Nat.exists_eq_add_one_of_ne_zero (Nat.ne_zero_of_lt hfuel)
    rw [List.append_nil]
    rfl
  | cons a as ih =>
    obtain ⟨fuel, rfl⟩ := Nat.exists_eq_add_one_of_ne_zero (Nat.ne_zero_of_lt hfuel)
    have hread := ih (a :: read) (Nat.lt_of_succ_lt_succ hfuel)
    rw [List.reverse_cons, List.append_assoc, List.singleton_append] at hread
    rw [List.map_cons, itemEvents, List.append_assoc]
    exact (items_succ_of_decodes (h a) fuel read _).trans hread

theorem decodes_list {encode : α → Json} (h : ∀ a, Decodes decoder (encode a) a) (as : List α) :
    Decodes (list decoder) (.array (as.map encode)) as := by
  intro rest
  have hnext : next ((Json.array (as.map encode)).events ++ rest)
      = .ok (.startArray, itemEvents (as.map encode) ++ .endArray :: rest) := by
    simp [next, Json.events]
  have hfuel : as.length < (itemEvents (as.map encode) ++ .endArray :: rest).length + 1 := by
    have hlength := length_le_length_itemEvents (as.map encode)
    rw [List.length_map] at hlength
    rw [List.length_append]
    omega
  rw [list, bind_eq_ok hnext]
  exact items_itemEvents h as [] hfuel rest

theorem decodes_strings (texts : List String) : Decodes (list string) (.strings texts) texts :=
  decodes_list decodes_string texts

/-! ## Structures -/

/-- Whether what is written of the given fields takes a structure from one state to another. A field
that need not be given may be left out. -/
inductive Fills : List (Field σ) → List (String × Json) → σ → σ → Prop
  | nil (s : σ) : Fills [] [] s s
  | skip {f : Field σ} {fields : List (Field σ)} {written : List (String × Json)} {s t : σ}
      (hpresence : f.presence ≠ .everywhere) (h : Fills fields written s t) :
      Fills (f :: fields) written s t
  | read {f : Field σ} {fields : List (Field σ)} {written : List (String × Json)} {s next t : σ}
      {j : Json} (hf : Decodes (f.read s) j next) (h : Fills fields written next t) :
      Fills (f :: fields) ((f.name, j) :: written) s t

theorem decodes_field (h : Decodes decoder j a) (name : String) (set : σ → α → σ) (s : σ) :
    Decodes ((field name decoder set).read s) j (set s a) :=
  h.map (set s)

variable {fields before : List (Field σ)} {written : List (String × Json)} {given : List String}
  {s t : σ}

theorem find?_name {f : Field σ} (hnames : ((before ++ f :: fields).map Field.name).Nodup) :
    (before ++ f :: fields).find? (fun g => g.name == f.name) = some f := by
  rw [List.map_append, List.map_cons, List.nodup_append] at hnames
  have hbefore : before.find? (fun g => g.name == f.name) = none := by
    refine List.find?_eq_none.mpr fun g hg hname => ?_
    exact hnames.2.2 g.name (List.mem_map_of_mem hg) f.name List.mem_cons_self
      (beq_iff_eq.mp hname)
  rw [List.find?_append, hbefore, Option.none_or]
  exact List.find?_cons_of_pos (beq_self_eq_true f.name)

theorem objectFields_endObject
    (hgiven : ∀ f ∈ fields, f.presence = .everywhere → f.name ∈ given) (fuel : Nat)
    (rest : List JsonEvent) :
    objectFields fields (fuel + 1) given s (.endObject :: rest) = .ok (s, rest) := by
  have hall : (fields.all fun f => f.presence != .everywhere || given.contains f.name) = true := by
    refine List.all_eq_true.mpr fun f hf => ?_
    rw [Bool.or_eq_true, bne_iff_ne, List.contains_iff_mem]
    exact Decidable.not_or_of_imp (hgiven f hf)
  have hnext : next (.endObject :: rest) = .ok (.endObject, rest) := rfl
  rw [objectFields, bind_eq_ok hnext]
  exact congrFun (if_pos hall) rest

theorem objectFields_key {f : Field σ} {next : σ} {events : List JsonEvent}
    (hfind : fields.find? (fun g => g.name == f.name) = some f) (hgiven : f.name ∉ given)
    (hread : Decodes (f.read s) j next) (fuel : Nat) :
    objectFields fields (fuel + 1) given s (.key (some f.name) :: (j.events ++ events))
      = objectFields fields fuel (f.name :: given) next events := by
  have hnext : Decoder.next (.key (some f.name) :: (j.events ++ events))
      = .ok (.key (some f.name), j.events ++ events) := rfl
  have hnew : ¬ given.contains f.name = true := by
    rwa [List.contains_iff_mem]
  rw [objectFields, bind_eq_ok hnext]
  simp only [hfind, if_neg hnew]
  exact bind_eq_ok (hread events)

/-- The fields of an object are taken up to its end. Those before them are dealt with: all that have
to be given have been given, and nothing else has. -/
theorem objectFields_of_fills (before : List (Field σ)) (hfills : Fills fields written s t)
    (hnames : ((before ++ fields).map Field.name).Nodup)
    (hgiven : ∀ name ∈ given, name ∈ before.map Field.name)
    (hbefore : ∀ f ∈ before, f.presence = .everywhere → f.name ∈ given) {fuel : Nat}
    (hfuel : written.length < fuel) (rest : List JsonEvent) :
    objectFields (before ++ fields) fuel given s (fieldEvents written ++ .endObject :: rest)
      = .ok (t, rest) := by
  obtain ⟨fuel, rfl⟩ := Nat.exists_eq_add_one_of_ne_zero (Nat.ne_zero_of_lt hfuel)
  -- The induction is on how the fields are filled. A field that is dealt with moves to those before.
  induction hfills generalizing before given fuel with
  | nil s =>
    rw [List.append_nil]
    exact objectFields_endObject hbefore fuel rest
  | @skip f fields written s t hpresence _ ih =>
    rw [List.append_cons] at hnames ⊢
    refine ih (before ++ [f]) hnames (fun name hname => ?_) (fun g hg hall => ?_) fuel hfuel
    · rw [List.map_append]
      exact List.mem_append_left _ (hgiven name hname)
    · rcases List.mem_append.mp hg with hg | hg
      · exact hbefore g hg hall
      · rw [List.mem_singleton.mp hg] at hall
        exact absurd hall hpresence
  | @read f fields written s next t j hread _ ih =>
    have hnew : f.name ∉ given := by
      intro hmem
      rw [List.map_append, List.map_cons, List.nodup_append] at hnames
      exact hnames.2.2 f.name (hgiven f.name hmem) f.name List.mem_cons_self rfl
    obtain ⟨fuel, rfl⟩ := Nat.exists_eq_add_one_of_ne_zero
      (Nat.ne_zero_of_lt (Nat.lt_of_succ_lt_succ hfuel))
    rw [fieldEvents, List.cons_append, List.cons_append, List.append_assoc,
      objectFields_key (find?_name hnames) hnew hread]
    rw [List.append_cons] at hnames ⊢
    refine ih (before ++ [f]) hnames (fun name hname => ?_) (fun g hg hall => ?_) fuel
      (Nat.lt_of_succ_lt_succ hfuel)
    · rw [List.map_append, List.map_singleton, List.mem_append, List.mem_singleton, or_comm]
      exact (List.mem_cons.mp hname).imp_right (hgiven name)
    · rcases List.mem_append.mp hg with hg | hg
      · exact List.mem_cons_of_mem _ (hbefore g hg hall)
      · rw [List.mem_singleton.mp hg]
        exact List.mem_cons_self

private theorem length_le_length_fieldEvents (written : List (String × Json)) :
    written.length ≤ (fieldEvents written).length := by
  induction written with
  | nil => exact Nat.le_refl 0
  | cons field written ih =>
    simp only [fieldEvents, List.length_append, List.length_cons]
    omega

/-- A structure is taken from the object of its fields. -/
theorem decodes_record (hnames : (fields.map Field.name).Nodup) (h : Fills fields written s t) :
    Decodes (record fields s) (.object written) t := by
  intro rest
  have hnext : next ((Json.object written).events ++ rest)
      = .ok (.startObject, fieldEvents written ++ .endObject :: rest) := by
    simp [next, Json.events]
  have hfuel : written.length < (fieldEvents written ++ .endObject :: rest).length + 1 := by
    have hlength := length_le_length_fieldEvents written
    rw [List.length_append]
    omega
  rw [record, bind_eq_ok hnext]
  exact objectFields_of_fills [] h hnames (by simp) (by simp) hfuel rest

/-! ## Texts -/

theorem isExact_nat {n : Nat} (h : n < UInt64.size) : IsExact (.nat n) :=
  .integer ⟨by omega, by omega⟩

theorem isExact_strings (texts : List String) : IsExact (.strings texts) := by
  refine .array fun item hitem => ?_
  obtain ⟨s, -, rfl⟩ := List.mem_map.mp hitem
  exact .string s

theorem isExact_optional {encode : α → Json} (h : ∀ a, IsExact (encode a)) (x : Option α) :
    IsExact (Json.optional encode x) := by
  cases x with
  | none => exact .null
  | some a => exact h a

/-- What is taken from a value is also taken from its text. -/
theorem ofTextStart_compact (hexact : IsExact j) (h : Decodes decoder j a) :
    decoder.ofTextStart j.compact = .ok a := by
  have hevents := h []
  rw [List.append_nil] at hevents
  rw [ofTextStart, read_compact hexact, hevents]
  rfl

/-- Nothing follows a value in its text. -/
theorem ofText_compact (hexact : IsExact j) (h : Decodes decoder j a) :
    decoder.ofText j.compact = .ok a := by
  have hevents := h []
  rw [List.append_nil] at hevents
  rw [ofText, read_compact hexact, hevents]
  rfl

theorem ofJson_of_decodes (h : Decodes decoder j a) : decoder.ofJson j = .ok a := by
  have hevents := h []
  rw [List.append_nil] at hevents
  rw [ofJson, hevents]
  rfl

end Roster.Decoder
