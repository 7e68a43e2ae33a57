import Roster.Proofs.Time.Writing

/-!
# The shape of a timestamp

- **Days** (`DayText`): four, two and two digits with dashes between them, whether they are a date or not.
- **Shape** (`hasShape`): a text is a day, alone or with a separator, two digits of an hour and anything
  after them (`hasShape_iff`). One test for each place says so, and every timestamp passes
  (`hasShape_of_read?`).
- **Normal form** (`normalForm`): a final `Z` is written out as an offset, and an hour without minutes
  gets them. Behind the hour it is a colon and what is read as minutes (`normalForm_text_cons`).
-/

namespace Roster.Time

open Roster.Number Roster.Text

/-! ## Days and hours as they are written -/

/-- A row of digits of a given length. -/
structure Digits (width : Nat) where
  chars : List Char
  length_chars : chars.length = width
  isDigit : ∀ c ∈ chars, c.isDigit = true

/-- The number that a row of digits denotes. -/
def Digits.value {width : Nat} (ds : Digits width) : Nat :=
  Nat.ofDigitChars 10 ds.chars 0

/-- A year, a month and a day in four, two and two digits. They need not be a date. -/
structure DayText where
  year : Digits 4
  month : Digits 2
  day : Digits 2

namespace DayText

/-- The digits with dashes between them. -/
def text (d : DayText) : List Char :=
  d.year.chars ++ '-' :: (d.month.chars ++ '-' :: d.day.chars)

/-- The date that the digits denote. -/
def date (d : DayText) : Date :=
  ⟨d.year.value, d.month.value, d.day.value⟩

end DayText

variable {width : Nat} {cs rest : List Char}

theorem digits?_digits (ds : Digits width) (rest : List Char) :
    digits? width (ds.chars ++ rest) = some (ds.value, rest) := by
  have hread := digits?_append ds.isDigit rest
  rwa [ds.length_chars] at hread

theorem exists_of_digits? {v : Nat} (h : digits? width cs = some (v, rest)) :
    ∃ ds : Digits width, cs = ds.chars ++ rest := by
  obtain ⟨ds, hcs, hlength, hdigits, -⟩ := digits?_eq_some h
  exact ⟨⟨ds, hlength, hdigits⟩, hcs⟩

theorem date?_text (d : DayText) (rest : List Char) :
    date? (d.text ++ rest) = if d.date.exists? then some (d.date, rest) else none := by
  simp only [date?, DayText.text, List.append_assoc, List.cons_append, digits?_digits, List.isPrefixOf?,
    beq_self_eq_true, if_true, Option.bind_eq_bind, Option.bind_some]
  rfl

theorem exists_of_date? {date : Date} (h : date? cs = some (date, rest)) :
    ∃ d : DayText, cs = d.text ++ rest := by
  simp only [date?, Option.bind_eq_bind, Option.bind_eq_some_iff, Prod.exists] at h
  obtain ⟨_, _, hyear, _, hdash, _, _, hmonth, _, hdash', _, _, hday, h⟩ := h
  simp only [Option.ite_none_right_eq_some, Option.some.injEq, Prod.mk.injEq] at h
  obtain ⟨-, -, rfl⟩ := h
  obtain ⟨year, rfl⟩ := exists_of_digits? hyear
  obtain ⟨month, hmonth⟩ := exists_of_digits? hmonth
  obtain ⟨day, hday⟩ := exists_of_digits? hday
  refine ⟨⟨year, month, day⟩, ?_⟩
  rw [← List.isPrefixOf?_eq_some_iff_append_eq.mp hdash, hmonth,
    ← List.isPrefixOf?_eq_some_iff_append_eq.mp hdash', hday]
  simp [DayText.text]

theorem read?_text_nil (d : DayText) :
    Timestamp.read? d.text
      = if d.date.exists? then some (.naive (.midnight d.date)) else none := by
  have hdate := date?_text d []
  rw [List.append_nil] at hdate
  rw [Timestamp.read?, hdate]
  split <;> rfl

/-- What a text is read as that goes on after the day. -/
theorem read?_text_cons (d : DayText) {separator : Char} (h : separator = 'T' ∨ separator = ' ')
    (cs : List Char) :
    Timestamp.read? (d.text ++ separator :: cs)
      = if d.date.exists? then (digits? 2 cs).bind fun hour => afterHour? d.date hour.1 hour.2
        else none := by
  rw [Timestamp.read?, date?_text]
  by_cases hexists : d.date.exists? = true
  · simp [hexists, h]
  · simp [hexists]

/-! ## Shape -/

/-- The tests for the places of a day. -/
def dayPlaces : List (Char → Bool) :=
  .replicate 4 Char.isDigit
    ++ (· == '-') :: (.replicate 2 Char.isDigit ++ (· == '-') :: .replicate 2 Char.isDigit)

/-- The tests for the places of a separator and an hour. -/
def hourPlaces : List (Char → Bool) :=
  (fun c => c == 'T' || c == ' ') :: .replicate 2 Char.isDigit

/-- Whether the first characters of a text pass one test each. -/
def beginsWith : List (Char → Bool) → List Char → Bool
  | [], _ => true
  | _ :: _, [] => false
  | test :: tests, c :: cs => test c && beginsWith tests cs

/-- Whether a text is a day, or begins with a day, a separator and an hour. -/
def hasShape (cs : List Char) : Bool :=
  (cs.length == 10 && beginsWith dayPlaces cs) || beginsWith (dayPlaces ++ hourPlaces) cs

theorem beginsWith_digits_iff {tests : List (Char → Bool)} :
    beginsWith (.replicate width Char.isDigit ++ tests) cs = true ↔
      ∃ (ds : Digits width) (rest : List Char), cs = ds.chars ++ rest ∧ beginsWith tests rest = true := by
  induction width generalizing cs with
  | zero =>
    constructor
    · intro h
      exact ⟨⟨[], rfl, by simp⟩, cs, rfl, h⟩
    · rintro ⟨ds, rest, rfl, h⟩
      rw [List.length_eq_zero_iff.mp ds.length_chars]
      exact h
  | succ width ih =>
    rw [List.replicate_succ, List.cons_append]
    constructor
    · intro h
      cases cs with
      | nil => cases h
      | cons c cs =>
        obtain ⟨hc, h⟩ := Bool.and_eq_true_iff.mp h
        obtain ⟨ds, rest, rfl, hrest⟩ := ih.mp h
        exact ⟨⟨c :: ds.chars, congrArg (· + 1) ds.length_chars,
          List.forall_mem_cons.mpr ⟨hc, ds.isDigit⟩⟩, rest, rfl, hrest⟩
    · rintro ⟨⟨ds, hlength, hdigits⟩, rest, rfl, hrest⟩
      cases ds with
      | nil => cases hlength
      | cons d ds =>
        obtain ⟨hd, hds⟩ := List.forall_mem_cons.mp hdigits
        exact Bool.and_eq_true_iff.mpr
          ⟨hd, ih.mpr ⟨⟨ds, Nat.succ.inj hlength, hds⟩, rest, rfl, hrest⟩⟩

theorem beginsWith_cons_iff {test : Char → Bool} {tests : List (Char → Bool)} :
    beginsWith (test :: tests) cs = true ↔
      ∃ c rest, cs = c :: rest ∧ test c = true ∧ beginsWith tests rest = true := by
  cases cs with
  | nil => simp [beginsWith]
  | cons c cs => simp [beginsWith]

theorem length_le_of_beginsWith {tests : List (Char → Bool)} (h : beginsWith tests cs = true) :
    tests.length ≤ cs.length := by
  induction tests generalizing cs with
  | nil => exact Nat.zero_le _
  | cons test tests ih =>
    obtain ⟨c, rest, rfl, -, hrest⟩ := beginsWith_cons_iff.mp h
    exact Nat.succ_le_succ (ih hrest)

theorem beginsWith_append (tests others : List (Char → Bool)) (cs : List Char) :
    beginsWith (tests ++ others) cs = (beginsWith tests cs && beginsWith others (cs.drop tests.length)) := by
  induction tests generalizing cs with
  | nil => rfl
  | cons test tests ih =>
    cases cs with
    | nil => rfl
    | cons c cs => rw [List.cons_append, beginsWith, beginsWith, ih, Bool.and_assoc]; rfl

theorem beginsWith_dayPlaces_iff {tests : List (Char → Bool)} :
    beginsWith (dayPlaces ++ tests) cs = true ↔
      ∃ (d : DayText) (rest : List Char), cs = d.text ++ rest ∧ beginsWith tests rest = true := by
  simp only [dayPlaces, List.append_assoc, List.cons_append, beginsWith_digits_iff,
    beginsWith_cons_iff, beq_iff_eq]
  constructor
  · rintro ⟨year, _, rfl, _, _, rfl, rfl, month, _, rfl, _, _, rfl, rfl, day, rest, rfl, hrest⟩
    exact ⟨⟨year, month, day⟩, rest, by simp [DayText.text], hrest⟩
  · rintro ⟨d, rest, rfl, hrest⟩
    exact ⟨d.year, _, by simp only [DayText.text, List.append_assoc, List.cons_append], _, _, rfl, rfl,
      d.month, _, rfl, _, _, rfl, rfl, d.day, rest, rfl, hrest⟩

theorem length_text (d : DayText) : d.text.length = 10 := by
  simp [DayText.text, Digits.length_chars]

/-- A text of the right shape is a day, or a day with more after the hour or nothing. -/
theorem hasShape_iff : hasShape cs = true ↔
    (∃ d : DayText, cs = d.text) ∨
      ∃ (d : DayText) (separator : Char) (hour : Digits 2) (rest : List Char),
        (separator = 'T' ∨ separator = ' ') ∧ cs = d.text ++ separator :: (hour.chars ++ rest) := by
  rw [hasShape, Bool.or_eq_true]
  refine or_congr ?_ ?_
  · rw [Bool.and_eq_true, beq_iff_eq, ← List.append_nil dayPlaces, beginsWith_dayPlaces_iff]
    constructor
    · rintro ⟨hlength, d, rest, rfl, -⟩
      rw [List.length_append, length_text, Nat.add_eq_left, List.length_eq_zero_iff] at hlength
      exact ⟨d, by rw [hlength, List.append_nil]⟩
    · rintro ⟨d, rfl⟩
      exact ⟨length_text d, d, [], (List.append_nil _).symm, rfl⟩
  · rw [beginsWith_dayPlaces_iff]
    refine exists_congr fun d => ?_
    rw [hourPlaces, ← List.append_nil (.replicate 2 Char.isDigit)]
    simp only [beginsWith_cons_iff, beginsWith_digits_iff, Bool.or_eq_true, beq_iff_eq]
    constructor
    · rintro ⟨_, rfl, separator, _, rfl, hseparator, hour, rest, rfl, -⟩
      exact ⟨separator, hour, rest, hseparator, rfl⟩
    · rintro ⟨separator, hour, rest, hseparator, rfl⟩
      exact ⟨_, rfl, separator, _, rfl, hseparator, hour, rest, rfl, rfl⟩

theorem hasShape_of_read? {t : Timestamp} (h : Timestamp.read? cs = some t) : hasShape cs = true := by
  simp only [Timestamp.read?, Option.bind_eq_bind, Option.bind_eq_some_iff, Prod.exists] at h
  obtain ⟨_, afterDate, hdate, h⟩ := h
  obtain ⟨d, rfl⟩ := exists_of_date? hdate
  rw [hasShape_iff]
  split at h
  · exact .inl ⟨d, List.append_nil _⟩
  · split at h
    · rename_i separator cs hseparator
      simp only [Option.bind_eq_some_iff, Prod.exists] at h
      obtain ⟨_, _, hhour, -⟩ := h
      obtain ⟨hour, rfl⟩ := exists_of_digits? hhour
      exact .inr ⟨d, separator, hour, _, hseparator, rfl⟩
    · cases h

/-! ## Normal form -/

/-- The text with a colon and minutes after its thirteenth character, if there is none yet. -/
def withMinutes (cs : List Char) : List Char :=
  if cs.length == 13 || cs[13]?.any (· != ':') then cs.take 13 ++ ':' :: '0' :: '0' :: cs.drop 13
  else cs

/-- The text with its offset and its minutes written out. -/
def normalForm (cs : List Char) : List Char :=
  withMinutes (spellOutUtc cs)

theorem withMinutes_append {start : List Char} (h : start.length = 13) (cs : List Char) :
    withMinutes (start ++ cs) = start ++ ':' :: afterHour cs := by
  cases cs with
  | nil => simp [withMinutes, afterHour, h, List.take_of_length_le h.le, List.drop_of_length_le h.le]
  | cons c cs =>
    by_cases hc : c = ':'
    · simp [withMinutes, afterHour, h, hc]
    · simp [withMinutes, afterHour, h, hc]

theorem spellOutUtc_append {start : List Char} (h : 'Z' ∉ start) (cs : List Char) :
    spellOutUtc (start ++ cs) = start ++ spellOutUtc cs := by
  cases cs using List.reverseRecOn with
  | nil => rw [List.append_nil, spellOutUtc_eq_self h]; simp [spellOutUtc]
  | append_singleton cs last =>
    by_cases hlast : last = 'Z'
    · simp [spellOutUtc, ← List.append_assoc, hlast]
    · simp [spellOutUtc, ← List.append_assoc, hlast]

theorem Digits.notMem {width : Nat} (ds : Digits width) {c : Char} (h : c.isDigit = false) :
    c ∉ ds.chars := fun hmem => Bool.false_ne_true (h.symm.trans (ds.isDigit c hmem))

theorem DayText.notMem_text (d : DayText) {c : Char} (hdigit : c.isDigit = false) (hdash : c ≠ '-') :
    c ∉ d.text := by
  simp [text, Digits.notMem _ hdigit, hdash]

theorem normalForm_text (d : DayText) : normalForm d.text = d.text := by
  rw [normalForm, spellOutUtc_eq_self (d.notMem_text (by decide) (by decide))]
  simp [withMinutes, length_text]

theorem length_text_cons (d : DayText) (separator : Char) (hour : Digits 2) :
    (d.text ++ separator :: hour.chars).length = 13 := by
  simp [length_text, hour.length_chars]

theorem spellOutUtc_text_cons (d : DayText) {separator : Char} (h : separator = 'T' ∨ separator = ' ')
    (hour : Digits 2) (rest : List Char) :
    spellOutUtc (d.text ++ separator :: hour.chars ++ rest)
      = d.text ++ separator :: hour.chars ++ spellOutUtc rest := by
  have hseparator : 'Z' ≠ separator := by rcases h with rfl | rfl <;> decide
  have hzone : 'Z' ∉ d.text ++ separator :: hour.chars := by
    simp [d.notMem_text, hseparator, hour.notMem]
  exact spellOutUtc_append hzone rest

theorem normalForm_text_cons (d : DayText) {separator : Char} (h : separator = 'T' ∨ separator = ' ')
    (hour : Digits 2) (rest : List Char) :
    normalForm (d.text ++ separator :: (hour.chars ++ rest))
      = d.text ++ separator :: (hour.chars ++ ':' :: afterHour (spellOutUtc rest)) := by
  have hsplit (cs : List Char) :
      d.text ++ separator :: (hour.chars ++ cs) = d.text ++ separator :: hour.chars ++ cs := by simp
  rw [normalForm, hsplit, spellOutUtc_text_cons d h, withMinutes_append (length_text_cons d separator hour),
    ← hsplit]

end Roster.Time
