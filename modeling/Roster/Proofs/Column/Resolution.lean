import Roster.Column.Value
import Roster.Proofs.Column.Names

/-!
# Which names resolve

Names lead to a value of a record exactly if they are the way to a column
(`Record.fieldAt?_eq_some_iff`), whatever parts the record has. So a text resolves exactly if it
names a column of the catalog: its path, walked from name to name, or its flat key
(`Record.resolve?_eq_some_iff_ofName?`).
-/

namespace Roster

variable {names : List String} {v : FieldValue}

/-! ## Names that lead to values -/

theorem Geo.exists_column {g : Geo} (h : g.fieldAt? names = some v) :
    ∃ c : Column, c.segments = "address" :: "geo" :: names := by
  unfold fieldAt? at h
  split at h
  · exact ⟨.lat, rfl⟩
  · exact ⟨.lng, rfl⟩
  · cases h

theorem Address.exists_column {a : Address} (h : a.fieldAt? names = some v) :
    ∃ c : Column, c.segments = "address" :: names := by
  unfold fieldAt? at h
  split at h
  · exact ⟨.street, rfl⟩
  · exact ⟨.suite, rfl⟩
  · exact ⟨.city, rfl⟩
  · exact ⟨.zipcode, rfl⟩
  · obtain ⟨g, -, hg⟩ := Option.bind_eq_some_iff.mp h
    exact Geo.exists_column hg
  · cases h

theorem Company.exists_column {c : Company} (h : c.fieldAt? names = some v) :
    ∃ d : Column, d.segments = "company" :: names := by
  unfold fieldAt? at h
  split at h
  · exact ⟨.companyName, rfl⟩
  · exact ⟨.companyCatchPhrase, rfl⟩
  · exact ⟨.companyBs, rfl⟩
  · cases h

namespace Record

variable {r : Record}

theorem exists_column (h : r.fieldAt? names = some v) : ∃ c : Column, c.segments = names := by
  unfold fieldAt? at h
  split at h
  · exact ⟨.id, rfl⟩
  · exact ⟨.name, rfl⟩
  · exact ⟨.username, rfl⟩
  · exact ⟨.email, rfl⟩
  · exact ⟨.phone, rfl⟩
  · exact ⟨.website, rfl⟩
  · obtain ⟨a, -, ha⟩ := Option.bind_eq_some_iff.mp h
    exact Address.exists_column ha
  · obtain ⟨c, -, hc⟩ := Option.bind_eq_some_iff.mp h
    exact Company.exists_column hc
  · cases h

/-- What names lead to is the value of the column that they are the way to. -/
theorem fieldAt?_eq_some_iff :
    r.fieldAt? names = some v ↔ ∃ c : Column, c.segments = names ∧ r.value? c = some v := by
  constructor
  · intro h
    obtain ⟨c, rfl⟩ := exists_column h
    exact ⟨c, rfl, h⟩
  · rintro ⟨c, rfl, h⟩
    exact h

/-! ## Texts that resolve -/

private theorem resolvePath?_path (c : Column) : r.resolvePath? c.path = r.value? c := by
  rw [resolvePath?, Column.splitOn_path, value?]

/-- A text with its dots as ends of names leads to the column whose path it is. -/
theorem resolvePath?_eq_some_iff {name : String} :
    r.resolvePath? name = some v ↔ ∃ c : Column, name = c.path ∧ r.value? c = some v := by
  rw [resolvePath?, fieldAt?_eq_some_iff]
  refine exists_congr fun c => and_congr_left' ?_
  rw [eq_comm, Column.splitOn_eq_segments_iff]

theorem resolve?_of_mem {name : String} (h : '.' ∈ name.toList) :
    r.resolve? name = r.resolvePath? name :=
  if_pos (by simpa using h)

theorem resolve?_of_notMem {name : String} (h : '.' ∉ name.toList) :
    r.resolve? name = (Column.ofFlatKey? name).bind r.value? :=
  if_neg (by simpa using h)

/-- With a dot in it a text can only be a path, and without one only a flat key. -/
theorem resolve?_eq_some_iff {name : String} :
    r.resolve? name = some v ↔
      ∃ c : Column, (name = c.path ∨ name = c.flatKey) ∧ r.value? c = some v := by
  by_cases h : '.' ∈ name.toList
  · rw [resolve?_of_mem h, resolvePath?_eq_some_iff]
    refine exists_congr fun c => and_congr_left' ?_
    have hflat : name ≠ c.flatKey := fun heq => c.notMem_flatKey (heq ▸ h)
    rw [or_iff_left hflat]
  · rw [resolve?_of_notMem h, Option.bind_eq_some_iff]
    refine exists_congr fun c => and_congr_left' ?_
    rw [Column.ofFlatKey?_eq_some_iff, or_iff_right_of_imp]
    rintro rfl
    exact (Column.flatKey_eq_path h).symm

/-- **A text resolves exactly if it names a column.** It then resolves to what the record has in
that column: the path of a column, the walk along the path and the flat key lead to the same value,
and every other text leads to none. -/
theorem resolve?_eq_some_iff_ofName? (r : Record) :
    (∀ (name : String) (v : FieldValue), r.resolve? name = some v ↔
      ∃ c, Column.ofName? name = some c ∧ r.value? c = some v) ∧
    (∀ c : Column, r.resolvePath? c.path = r.value? c ∧ r.resolve? c.path = r.value? c ∧
      r.resolve? c.flatKey = r.value? c) ∧
    ∀ name : String, (∀ c : Column, name ≠ c.path ∧ name ≠ c.flatKey) → r.resolve? name = none := by
  have hname (c : Column) (name : String) (h : name = c.path ∨ name = c.flatKey) :
      r.resolve? name = r.value? c := by
    refine Option.ext fun v => ?_
    rw [resolve?_eq_some_iff]
    refine ⟨?_, fun hv => ⟨c, h, hv⟩⟩
    -- A text names one column only.
    rintro ⟨d, hd, hv⟩
    have hsome := Column.ofName?_eq_some_iff.mpr h
    rw [Column.ofName?_eq_some_iff.mpr hd] at hsome
    cases hsome
    exact hv
  refine ⟨fun name v => ?_, fun c => ⟨resolvePath?_path c, hname c _ (.inl rfl),
    hname c _ (.inr rfl)⟩, fun name hother => ?_⟩
  · rw [resolve?_eq_some_iff]
    exact exists_congr fun c => and_congr_left' Column.ofName?_eq_some_iff.symm
  · rw [Option.eq_none_iff_forall_ne_some]
    intro v hv
    obtain ⟨c, hc | hc, -⟩ := resolve?_eq_some_iff.mp hv
    · exact (hother c).1 hc
    · exact (hother c).2 hc

/-- A dot at the end of a path keeps it from resolving. -/
theorem resolve?_eq_none_of_trailing :
    (∀ c : Column, "address.city." ≠ c.path ∧ "address.city." ≠ c.flatKey) ∧
      ({ id := 1, address := some { city := "Reno" } } : Record).resolve? "address.city." = none := by
  have hother : ∀ c : Column, "address.city." ≠ c.path ∧ "address.city." ≠ c.flatKey := by
    intro c
    cases c <;> decide
  exact ⟨hother, (resolve?_eq_some_iff_ofName? _).2.2 _ hother⟩

end Record

end Roster
