import Mathlib.Data.List.TakeWhile
import Roster.Proofs.Time.Shape

/-!
# Patterns of timestamps

A timestamp can be read by trying one pattern after the other (`Timestamp.byPatterns?`). The patterns are
nine rows of items, those with an offset first and the day alone last; the first one that fits the whole
normal form of a text of the right shape gives the timestamp.

Going through the text once, as `Timestamp.read?` does, comes to the same for every text
(`read?_eq_byPatterns?`).
-/

namespace Roster.Time

open Roster.Number Roster.Text

/-! ## Patterns -/

/-- The part of a timestamp that a number in a pattern stands for. -/
inductive Part
  | year
  | month
  | day
  | hour
  | minute
  | second

namespace Part

/-- The greatest number of digits of a part. -/
def width : Part → Nat
  | year => 4
  | _ => 2

/-- Whether a part can be a number, whatever the other parts are. -/
def allows (n : Nat) : Part → Bool
  | year => true
  | month => 1 ≤ n && n ≤ 12
  | day => 1 ≤ n && n ≤ 31
  | hour => n < 24
  | minute => n < 60
  | second => n ≤ 60

end Part

/-- What is known of a timestamp. A number that is not known is zero. -/
structure Parts where
  year : Nat := 0
  month : Nat := 0
  day : Nat := 0
  hour : Nat := 0
  minute : Nat := 0
  second : Nat := 0
  nanosecond : Nat := 0
  offset : Option Int := none

namespace Parts

/-- The parts with a number for one of them. -/
def set (n : Nat) (parts : Parts) : Part → Parts
  | .year => { parts with year := n }
  | .month => { parts with month := n }
  | .day => { parts with day := n }
  | .hour => { parts with hour := n }
  | .minute => { parts with minute := n }
  | .second => { parts with second := n }

/-- The date of the parts, which need not exist. -/
def date (parts : Parts) : Date :=
  ⟨parts.year, parts.month, parts.day⟩

/-- The wall time of the parts. -/
def wall (parts : Parts) : WallTime :=
  ⟨parts.date, parts.hour, parts.minute, parts.second, parts.nanosecond⟩

/-- The timestamp of the parts, if their date exists. -/
def timestamp? (parts : Parts) : Option Timestamp :=
  if parts.date.exists? then
    some (match parts.offset with
      | some offset => .aware parts.wall offset
      | none => .naive parts.wall)
  else none

end Parts

/-- What can stand in a pattern. -/
inductive PatternItem
  /-- A number, after any blanks. -/
  | number (part : Part)
  /-- A character that is itself. -/
  | mark (c : Char)
  /-- Any blanks. -/
  | blanks
  /-- A fraction of a second or none. -/
  | fraction
  /-- An offset, which ends the text. -/
  | offset

/-- Reads a number of up to `width` digits, after any blanks. -/
def number? (width : Nat) (cs : List Char) : Option (Nat × List Char) :=
  let cs := trimStart cs
  match (cs.take width).takeWhile Char.isDigit with
  | [] => none
  | ds => some (Nat.ofDigitChars 10 ds 0, cs.drop ds.length)

/-- Reads what one item stands for. -/
def PatternItem.read? (parts : Parts) (cs : List Char) : PatternItem → Option (Parts × List Char)
  | number part => (number? part.width cs).bind fun (n, rest) =>
    if part.allows n then some (parts.set n part, rest) else none
  | mark c => ([c].isPrefixOf? cs).map fun rest => (parts, rest)
  | blanks => some (parts, trimStart cs)
  | fraction => (fraction? cs).map fun (n, rest) => ({ parts with nanosecond := n }, rest)
  | offset => (offset? cs).map fun n => ({ parts with offset := some n }, [])

/-- Reads what the items of a pattern stand for, one after the other. -/
def readItems? (items : List PatternItem) (parts : Parts) (cs : List Char) :
    Option (Parts × List Char) :=
  items.foldlM (fun (parts, cs) item => item.read? parts cs) (parts, cs)

/-- The timestamp of what has been read, if nothing is left over. -/
def finish? : Parts × List Char → Option Timestamp
  | (parts, rest) => if rest.isEmpty then parts.timestamp? else none

/-- The timestamp of a text that a pattern fits as a whole. -/
def readPattern? (items : List PatternItem) (cs : List Char) : Option Timestamp :=
  (readItems? items {} cs).bind finish?

/-- The items of a day. -/
def dayItems : List PatternItem :=
  [.number .year, .mark '-', .number .month, .mark '-', .number .day]

/-- The items of an hour and minutes. -/
def clockItems : List PatternItem :=
  [.number .hour, .mark ':', .number .minute]

/-- The items of seconds and their fraction. -/
def secondItems : List PatternItem :=
  [.mark ':', .number .second, .fraction]

/-- What may follow the minutes, in the order in which it is tried. -/
def tails : List (List PatternItem) :=
  [secondItems ++ [.offset], [.offset], secondItems, []]

/-- The patterns of timestamps, in the order in which they are tried. -/
def patterns : List (List PatternItem) :=
  (tails.flatMap fun tail => [.mark 'T', .blanks].map fun separator =>
    dayItems ++ separator :: (clockItems ++ tail)) ++ [dayItems]

/-- The timestamp that a text denotes by the first pattern that fits its normal form. -/
def Timestamp.byPatterns? (cs : List Char) : Option Timestamp :=
  if hasShape cs then patterns.findSome? fun items => readPattern? items (normalForm cs) else none

/-! ## Reading by patterns -/

section Items

variable {width : Nat} {cs : List Char} {items others : List PatternItem} {parts : Parts}

theorem readItems?_cons (item : PatternItem) :
    readItems? (item :: items) parts cs
      = (item.read? parts cs).bind fun (parts, rest) => readItems? items parts rest := by
  simp [readItems?]

theorem readItems?_append :
    readItems? (items ++ others) parts cs
      = (readItems? items parts cs).bind fun (parts, rest) => readItems? others parts rest := by
  simp [readItems?]

private theorem trimStart_digits (hwidth : 0 < width) (ds : Digits width) (rest : List Char) :
    trimStart (ds.chars ++ rest) = ds.chars ++ rest := by
  obtain ⟨chars, hlength, hdigits⟩ := ds
  cases chars with
  | nil => exact absurd hlength hwidth.ne
  | cons c chars =>
    have hblank := isBlank_of_isDigit (hdigits c List.mem_cons_self)
    simp [trimStart, hblank]

private theorem number?_digits (hwidth : 0 < width) (ds : Digits width) (rest : List Char) :
    number? width (ds.chars ++ rest) = some (ds.value, rest) := by
  have htake : (ds.chars ++ rest).take width = ds.chars := List.take_left' ds.length_chars
  have hall : ds.chars.takeWhile Char.isDigit = ds.chars := List.takeWhile_eq_self_iff.mpr ds.isDigit
  rw [number?]
  simp only [trimStart_digits hwidth, htake, hall]
  split
  · rename_i hnil
    have hlength := ds.length_chars
    rw [hnil] at hlength
    exact absurd hlength hwidth.ne
  · rw [List.drop_left]
    rfl

theorem readItems?_number (ds : Digits width) {part : Part} (hpart : part.width = width)
    (hwidth : 0 < width) (rest : List Char) :
    readItems? (.number part :: items) parts (ds.chars ++ rest)
      = if part.allows ds.value then readItems? items (parts.set ds.value part) rest else none := by
  simp only [readItems?_cons, PatternItem.read?, hpart, number?_digits hwidth, Option.bind_some]
  by_cases hallows : part.allows ds.value = true
  · simp [hallows]
  · simp [hallows]

theorem readItems?_mark (c : Char) (rest : List Char) :
    readItems? (.mark c :: items) parts (c :: rest) = readItems? items parts rest := by
  simp [readItems?_cons, PatternItem.read?, List.isPrefixOf?]

theorem readItems?_mark_of_ne {c : Char} (h : ∀ rest, cs ≠ c :: rest) :
    readItems? (.mark c :: items) parts cs = none := by
  cases cs with
  | nil => rfl
  | cons d rest =>
    have hne : c ≠ d := fun heq => h rest (heq ▸ rfl)
    simp [readItems?_cons, PatternItem.read?, List.isPrefixOf?, hne]

theorem readItems?_blanks :
    readItems? (.blanks :: items) parts cs = readItems? items parts (trimStart cs) := by
  simp [readItems?_cons, PatternItem.read?]

end Items

/-! ## The day -/

/-- The parts of a day. -/
def DayText.parts (d : DayText) : Parts :=
  { year := d.year.value, month := d.month.value, day := d.day.value }

/-- The parts of a day, if its month and its day are numbers that a month and a day can be. -/
def DayText.parts? (d : DayText) : Option Parts :=
  if Part.month.allows d.month.value && Part.day.allows d.day.value then some d.parts else none

theorem readItems?_dayItems (d : DayText) (rest : List Char) :
    readItems? dayItems {} (d.text ++ rest) = d.parts?.map fun parts => (parts, rest) := by
  simp only [dayItems, DayText.text, List.append_assoc, List.cons_append, DayText.parts?, DayText.parts]
  have hyear : Part.year.allows d.year.value = true := rfl
  rw [readItems?_number d.year rfl (by decide), if_pos hyear, readItems?_mark,
    readItems?_number d.month rfl (by decide), readItems?_mark,
    readItems?_number d.day rfl (by decide)]
  by_cases hmonth : Part.month.allows d.month.value = true
  · by_cases hday : Part.day.allows d.day.value = true
    · simp [hmonth, hday, Parts.set, readItems?]
    · simp [hmonth, hday]
  · simp [hmonth]

/-- A date that exists is in the ranges of its parts. -/
private theorem parts?_of_exists {d : DayText} (h : d.date.exists? = true) : d.parts? = some d.parts := by
  have hdays := daysInMonth_le d.date.year d.date.month
  simp only [Date.exists?, Bool.and_eq_true, decide_eq_true_eq] at h
  have hallows : (Part.month.allows d.date.month && Part.day.allows d.date.day) = true := by
    simp only [Part.allows, Bool.and_eq_true, decide_eq_true_eq]
    omega
  exact if_pos hallows

/-- The ranges do not matter to what asks whether the date exists. -/
theorem bind_parts? {d : DayText} {f : Parts → Option Timestamp} {result : Option Timestamp}
    (h : f d.parts = if d.date.exists? then result else none) :
    d.parts?.bind f = if d.date.exists? then result else none := by
  by_cases hexists : d.date.exists? = true
  · rw [parts?_of_exists hexists, Option.bind_some, h]
  · rw [if_neg hexists] at h ⊢
    rw [DayText.parts?]
    split
    · rw [Option.bind_some, h]
    · rfl

/-! ## The hour and what follows -/

private theorem findSome?_bind {α β γ : Type} (found : Option α) (f : γ → α → Option β) (items : List γ) :
    (items.findSome? fun c => found.bind (f c)) = found.bind fun a => items.findSome? fun c => f c a := by
  cases found with
  | none => simp
  | some a => rfl

private theorem findSome?_cons_eq_or {α β : Type} (f : α → Option β) (a : α) (items : List α) :
    (a :: items).findSome? f = (f a).or (items.findSome? f) := by
  cases h : f a <;> simp [h]

private theorem findSome?_flatMap {α β γ : Type} (f : γ → Option β) (g : α → List γ) (items : List α) :
    (items.flatMap g).findSome? f = items.findSome? fun a => (g a).findSome? f := by
  induction items with
  | nil => rfl
  | cons a items ih => rw [List.flatMap_cons, List.findSome?_append, ih, findSome?_cons_eq_or]

/-- A separator is read by one of the two items for it. -/
theorem findSome?_separators {parts : Parts} {separator : Char} (h : separator = 'T' ∨ separator = ' ')
    (hour : Digits 2) (rest : List Char) (tail : List PatternItem) :
    ([PatternItem.mark 'T', .blanks].findSome? fun item =>
        (readItems? (item :: (clockItems ++ tail)) parts (separator :: (hour.chars ++ rest))).bind finish?)
      = (readItems? (clockItems ++ tail) parts (hour.chars ++ rest)).bind finish? := by
  have hletter : readItems? (clockItems ++ tail) parts ('T' :: (hour.chars ++ rest)) = none := rfl
  have hspace : trimStart (' ' :: (hour.chars ++ rest)) = hour.chars ++ rest :=
    trimStart_digits (by decide) hour rest
  rcases h with rfl | rfl
  · have hblanks : trimStart ('T' :: (hour.chars ++ rest)) = 'T' :: (hour.chars ++ rest) := rfl
    simp [findSome?_cons_eq_or, readItems?_mark, readItems?_blanks, hblanks, hletter]
  · have hmark : readItems? (.mark 'T' :: (clockItems ++ tail)) parts (' ' :: (hour.chars ++ rest))
        = none := readItems?_mark_of_ne (by simp)
    simp [findSome?_cons_eq_or, hmark, readItems?_blanks, hspace]

theorem readItems?_clockItems (parts : Parts) (hour : Digits 2) (cs : List Char) :
    readItems? clockItems parts (hour.chars ++ ':' :: cs)
      = (oneOrTwoDigits? cs).bind fun minute =>
        if hour.value < 24 ∧ minute.1 < 60 then
          some ({ parts with hour := hour.value, minute := minute.1 }, minute.2)
        else none := by
  rw [clockItems, readItems?_number hour rfl (by decide), readItems?_mark, readItems?_cons]
  have hminute : number? Part.minute.width cs = oneOrTwoDigits? cs := rfl
  rw [PatternItem.read?, hminute]
  cases oneOrTwoDigits? cs with
  | none => simp
  | some minute =>
    by_cases hhour : hour.value < 24
    · by_cases hless : minute.1 < 60
      · simp [Part.allows, hhour, hless, Parts.set, readItems?]
      · simp [Part.allows, hless]
    · simp [Part.allows, hhour]

theorem readItems?_secondItems (parts : Parts) (cs : List Char) :
    readItems? secondItems parts (':' :: cs)
      = (seconds? (':' :: cs)).map fun found =>
        ({ parts with second := found.1, nanosecond := found.2.1 }, found.2.2) := by
  rw [secondItems, readItems?_mark, readItems?_cons]
  have hsecond : number? Part.second.width cs = oneOrTwoDigits? cs := rfl
  rw [PatternItem.read?, hsecond, seconds?]
  cases oneOrTwoDigits? cs with
  | none => simp
  | some second =>
    by_cases hmost : second.1 ≤ 60
    · cases hfraction : fraction? second.2 with
      | none => simp [Part.allows, hmost, readItems?_cons, PatternItem.read?, hfraction]
      | some found =>
        simp [Part.allows, hmost, PatternItem.read?, hfraction, Parts.set, readItems?]
    · simp [Part.allows, hmost]

theorem readItems?_offset (parts : Parts) (cs : List Char) :
    readItems? [.offset] parts cs
      = (offset? cs).map fun offset => ({ parts with offset := some offset }, []) := by
  simp [readItems?, PatternItem.read?]

/-- What a text ends with after the time of day: nothing, or an offset. -/
def zone? (wall : WallTime) (cs : List Char) : Option Timestamp :=
  if cs.isEmpty then some (.naive wall) else (offset? cs).map (.aware wall)

/-- An offset is tried first, and without one nothing may be left over. -/
theorem offset_or_finish? {parts : Parts} (h : parts.offset = none) (cs : List Char) :
    ((readItems? [.offset] parts cs).bind finish?).or (finish? (parts, cs))
      = if parts.date.exists? then zone? parts.wall cs else none := by
  rw [readItems?_offset]
  by_cases hexists : parts.date.exists? = true
  · cases cs with
    | nil =>
      have hnone : offset? [] = none := rfl
      simp [hnone, finish?, Parts.timestamp?, hexists, h, zone?]
    | cons c cs =>
      cases hoffset : offset? (c :: cs) with
      | none => simp [finish?, zone?, hoffset]
      | some offset =>
        have hdate : Parts.date { parts with offset := some offset } = parts.date := rfl
        have hwall : Parts.wall { parts with offset := some offset } = parts.wall := rfl
        simp [finish?, Parts.timestamp?, hdate, hwall, hexists, zone?, hoffset]
  · have hnone (found : Parts × List Char) (hdate : found.1.date = parts.date) : finish? found = none := by
      simp [finish?, Parts.timestamp?, hdate, hexists]
    rw [hnone (parts, cs) rfl, if_neg hexists, Option.or_none]
    cases offset? cs with
    | none => rfl
    | some offset => exact hnone ({ parts with offset := some offset }, []) rfl

/-- Whatever follows the minutes, one of the patterns takes it as it is. -/
theorem findSome?_tails {parts : Parts} (h : parts.offset = none)
    (hsecond : parts.second = 0 ∧ parts.nanosecond = 0) (cs : List Char) :
    (tails.findSome? fun tail => (readItems? tail parts cs).bind finish?)
      = if parts.date.exists? then
          (seconds? cs).bind fun found =>
            zone? { parts.wall with second := found.1, nanosecond := found.2.1 } found.2.2
        else none := by
  have hempty : readItems? [] parts cs = some (parts, cs) := rfl
  simp only [tails, findSome?_cons_eq_or, List.findSome?_nil, Option.or_none, readItems?_append, hempty,
    Option.bind_some, Option.bind_assoc]
  -- Seconds start with a colon and an offset never does, so at most one of the tails goes on.
  by_cases hcolon : ∃ rest, cs = ':' :: rest
  · obtain ⟨rest, rfl⟩ := hcolon
    have hoffset : offset? (':' :: rest) = none := rfl
    have hleft : finish? (parts, ':' :: rest) = none := rfl
    rw [readItems?_secondItems, readItems?_offset, hoffset, hleft]
    cases seconds? (':' :: rest) with
    | none => simp
    | some found =>
      have hfound : Parts.offset { parts with second := found.1, nanosecond := found.2.1 } = none := h
      simp only [Option.map_some, Option.bind_some, Option.map_none, Option.bind_none, Option.none_or,
        Option.or_none]
      exact offset_or_finish? hfound found.2.2
  · have hnone : readItems? secondItems parts cs = none :=
      readItems?_mark_of_ne fun rest heq => hcolon ⟨rest, heq⟩
    have hseconds : seconds? cs = some (0, 0, cs) := by
      unfold seconds?
      split
      · exact absurd ⟨_, rfl⟩ hcolon
      · rfl
    have hwall : { parts.wall with second := 0, nanosecond := 0 } = parts.wall := by
      simp [Parts.wall, hsecond]
    simp only [hnone, Option.bind_none, Option.none_or, offset_or_finish? h, hseconds, Option.bind_some,
      hwall]

/-! ## Both ways of reading -/

/-- Every pattern begins with the day, and the last one ends with it. -/
theorem findSome?_patterns (d : DayText) (rest : List Char) :
    (patterns.findSome? fun items => readPattern? items (d.text ++ rest))
      = d.parts?.bind fun parts =>
          (tails.findSome? fun tail => [PatternItem.mark 'T', .blanks].findSome? fun separator =>
            (readItems? (separator :: (clockItems ++ tail)) parts rest).bind finish?).or
              (finish? (parts, rest)) := by
  have hday (items : List PatternItem) : readPattern? (dayItems ++ items) (d.text ++ rest)
      = d.parts?.bind fun parts => (readItems? items parts rest).bind finish? := by
    rw [readPattern?, readItems?_append, readItems?_dayItems]
    cases d.parts? <;> rfl
  have hwhole := hday []
  rw [List.append_nil] at hwhole
  simp only [patterns, List.findSome?_append, findSome?_flatMap, List.findSome?_map, Function.comp_def,
    hday, findSome?_cons_eq_or, hwhole, List.findSome?_nil, Option.or_none]
  cases d.parts? with
  | none => simp
  | some parts => rfl

theorem findSome?_patterns_day (d : DayText) :
    (patterns.findSome? fun items => readPattern? items d.text)
      = if d.date.exists? then some (.naive (.midnight d.date)) else none := by
  have hpatterns := findSome?_patterns d []
  rw [List.append_nil] at hpatterns
  rw [hpatterns]
  exact bind_parts? rfl

/-- What follows a colon after the hour, in the order in which it is read. -/
theorem findSome?_patterns_hour (d : DayText) {separator : Char} (h : separator = 'T' ∨ separator = ' ')
    (hour : Digits 2) (cs : List Char) :
    (patterns.findSome? fun items =>
        readPattern? items (d.text ++ separator :: (hour.chars ++ ':' :: cs)))
      = if d.date.exists? then
          (oneOrTwoDigits? cs).bind fun minute =>
            if hour.value < 24 ∧ minute.1 < 60 then
              (seconds? minute.2).bind fun found =>
                zone? ⟨d.date, hour.value, minute.1, found.1, found.2.1⟩ found.2.2
            else none
        else none := by
  rw [findSome?_patterns]
  refine bind_parts? ?_
  have hleft : finish? (d.parts, separator :: (hour.chars ++ ':' :: cs)) = none := rfl
  simp only [findSome?_separators h, readItems?_append, readItems?_clockItems, Option.bind_assoc,
    findSome?_bind, hleft, Option.or_none]
  cases oneOrTwoDigits? cs with
  | none => simp
  | some minute =>
    by_cases hrange : hour.value < 24 ∧ minute.1 < 60
    · simp only [Option.bind_some, if_pos hrange]
      exact findSome?_tails rfl ⟨rfl, rfl⟩ minute.2
    · simp [if_neg hrange]

theorem afterHour?_eq_bind (date : Date) (hour : Nat) (cs : List Char) :
    afterHour? date hour cs
      = (oneOrTwoDigits? (afterHour (spellOutUtc cs))).bind fun minute =>
        if hour < 24 ∧ minute.1 < 60 then
          (seconds? minute.2).bind fun found =>
            zone? ⟨date, hour, minute.1, found.1, found.2.1⟩ found.2.2
        else none := by
  rw [afterHour?]
  cases oneOrTwoDigits? (afterHour (spellOutUtc cs)) with
  | none => rfl
  | some minute =>
    cases hfound : seconds? minute.2 with
    | none => simp [hfound]
    | some found =>
      by_cases hrange : hour < 24 ∧ minute.1 < 60
      · simp [hfound, hrange, zone?]
      · simp only [Option.bind_eq_bind, Option.bind_some, hfound, Bool.and_eq_true, decide_eq_true_eq,
          if_neg hrange]

/-- **Timestamps can be read by patterns.** Going through a text once gives what the first pattern gives
that fits the normal form of the text, if the text has the right shape, and nothing otherwise. -/
theorem read?_eq_byPatterns? (cs : List Char) : Timestamp.read? cs = Timestamp.byPatterns? cs := by
  rw [Timestamp.byPatterns?]
  by_cases hshape : hasShape cs = true
  · rw [if_pos hshape]
    rcases hasShape_iff.mp hshape with ⟨d, rfl⟩ | ⟨d, separator, hour, rest, hseparator, rfl⟩
    · rw [normalForm_text, findSome?_patterns_day, read?_text_nil]
    · rw [normalForm_text_cons d hseparator, findSome?_patterns_hour d hseparator,
        read?_text_cons d hseparator, digits?_digits, Option.bind_some, afterHour?_eq_bind]
  · rw [if_neg hshape, Option.eq_none_iff_forall_ne_some]
    exact fun t ht => hshape (hasShape_of_read? ht)

end Roster.Time
