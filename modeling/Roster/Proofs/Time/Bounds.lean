import Roster.Proofs.Text.BytePlaces
import Roster.Proofs.Time.Patterns

/-!
# Timestamps and the bytes of a text

The shape of a timestamp can be told by looking at single bytes, and its minutes can be put in after so many
bytes. Both can fail: a byte may not be there, and text can only be put in where a character ends.

- **Shape** (`shapeOfBytes?_eq`): the tests come in an order in which no byte is looked for that is not there.
  They say what the places of the characters say, since no byte of a character beyond ASCII passes a test.
- **Minutes** (`withMinutesInBytes?_eq`): after an hour, which has thirteen bytes, a character ends.
- **Both** (`read?_within_bytes`): reading a timestamp by its bytes never fails, whatever the text is.
-/

namespace Roster.Time

open Roster.Text

variable {tests : List (Char → Bool)} {bytes : List UInt8} {cs : List Char}

/-! ## Tests in turn -/

/-- Whether tests are passed that are made one after the other, as long as they are passed. There is no outcome
if it comes to a test that can not be made. -/
def inTurn : List (Option Bool) → Option Bool
  | [] => some true
  | some true :: tests => inTurn tests
  | test :: _ => test

/-- Whether the byte at a place passes a test, if there is one. -/
def byteAt? (i : Nat) (test : Char → Bool) (bytes : List UInt8) : Option Bool :=
  bytes[i]?.map fun b => test (byteChar b)

/-- Whether the bytes from one place to another one are digits, if all these places are there. -/
def digitsAt? (start stop : Nat) (bytes : List UInt8) : Option Bool :=
  if start ≤ stop ∧ stop ≤ bytes.length then
    some (((bytes.take stop).drop start).all fun b => (byteChar b).isDigit)
  else none

/-- The tests for the bytes of a day. -/
def dayTests (bytes : List UInt8) : List (Option Bool) :=
  [some (10 ≤ bytes.length), digitsAt? 0 4 bytes, byteAt? 4 (· == '-') bytes, digitsAt? 5 7 bytes,
    byteAt? 7 (· == '-') bytes, digitsAt? 8 10 bytes]

/-- The tests for the bytes of a separator and an hour. -/
def hourTests (bytes : List UInt8) : List (Option Bool) :=
  [byteAt? 10 (fun c => c == 'T' || c == ' ') bytes, some (13 ≤ bytes.length), digitsAt? 11 13 bytes]

/-- Whether bytes are a day, or begin with a day, a separator and an hour. -/
def shapeOfBytes? (bytes : List UInt8) : Option Bool :=
  (inTurn (dayTests bytes)).bind fun day =>
    if day && bytes.length != 10 then inTurn (hourTests bytes) else some day

theorem inTurn_map_some (outcomes : List Bool) : inTurn (outcomes.map some) = some (outcomes.all id) := by
  induction outcomes with
  | nil => rfl
  | cons outcome outcomes ih =>
    cases outcome with
    | false => rfl
    | true => simpa [inTurn] using ih

/-! ## Shape -/

theorem inTurn_dayTests (bytes : List UInt8) :
    inTurn (dayTests bytes) = some (beginsWith dayPlaces (bytes.map byteChar)) := by
  by_cases hlength : 10 ≤ bytes.length
  · match bytes, hlength with
    | y₁ :: y₂ :: y₃ :: y₄ :: dash :: m₁ :: m₂ :: dash' :: d₁ :: d₂ :: rest, _ =>
      have htests : dayTests (y₁ :: y₂ :: y₃ :: y₄ :: dash :: m₁ :: m₂ :: dash' :: d₁ :: d₂ :: rest)
          = [true, [y₁, y₂, y₃, y₄].all fun b => (byteChar b).isDigit, byteChar dash == '-',
              [m₁, m₂].all fun b => (byteChar b).isDigit, byteChar dash' == '-',
              [d₁, d₂].all fun b => (byteChar b).isDigit].map some := by
        simp [dayTests, digitsAt?, byteAt?]
      rw [htests, inTurn_map_some]
      simp [dayPlaces, beginsWith, Bool.and_assoc]
  · have hshort : beginsWith dayPlaces (bytes.map byteChar) = false := by
      refine Bool.eq_false_iff.mpr fun hplaces => hlength ?_
      simpa [dayPlaces] using length_le_of_beginsWith hplaces
    rw [hshort, dayTests, decide_eq_false hlength]
    rfl

theorem inTurn_hourTests (h : 10 < bytes.length) :
    inTurn (hourTests bytes) = some (beginsWith hourPlaces ((bytes.map byteChar).drop 10)) := by
  obtain ⟨day, separator, time, rfl, hday⟩ :
      ∃ day separator time, bytes = day ++ separator :: time ∧ day.length = 10 :=
    ⟨bytes.take 10, bytes[10], bytes.drop 11, by simp, List.length_take_of_le h.le⟩
  have hdrop : ((day ++ separator :: time).map byteChar).drop 10 = byteChar separator :: time.map byteChar := by
    rw [List.map_append, List.drop_left' (by rw [List.length_map, hday]), List.map_cons]
  have hbyte (test : Char → Bool) :
      byteAt? 10 test (day ++ separator :: time) = some (test (byteChar separator)) := by
    simp [byteAt?, hday]
  rw [hdrop, hourTests, hbyte]
  cases hseparator : byteChar separator == 'T' || byteChar separator == ' ' with
  | false => simp [inTurn, hourPlaces, beginsWith, hseparator]
  | true =>
    -- With fewer than two bytes left the test of the length fails, and the digits are not looked for.
    rcases time with _ | ⟨h₁, _ | ⟨h₂, rest⟩⟩
    · simp [hday, inTurn, hourPlaces, beginsWith, hseparator]
    · simp [hday, inTurn, hourPlaces, beginsWith, hseparator]
    · have hlength : 13 ≤ (day ++ separator :: h₁ :: h₂ :: rest).length := by
        simp only [List.length_append, List.length_cons]
        omega
      have hhour : ((day ++ separator :: h₁ :: h₂ :: rest).take 13).drop 11 = [h₁, h₂] := by
        simp [List.take_append, List.drop_append, hday]
      have htests : [some true, some (decide (13 ≤ (day ++ separator :: h₁ :: h₂ :: rest).length)),
            digitsAt? 11 13 (day ++ separator :: h₁ :: h₂ :: rest)]
          = [true, true, [h₁, h₂].all fun b => (byteChar b).isDigit].map some := by
        rw [digitsAt?, if_pos ⟨by omega, hlength⟩, hhour, decide_eq_true hlength]
        rfl
      rw [htests, inTurn_map_some]
      simp [hourPlaces, beginsWith, hseparator]

/-- Tests of single bytes are made as if these were characters. -/
theorem shapeOfBytes?_eq_hasShape (bytes : List UInt8) :
    shapeOfBytes? bytes = some (hasShape (bytes.map byteChar)) := by
  have hday : dayPlaces.length = 10 := rfl
  rw [shapeOfBytes?, inTurn_dayTests, Option.bind_some, hasShape, beginsWith_append, hday, List.length_map]
  by_cases hplaces : beginsWith dayPlaces (bytes.map byteChar) = true
  · have hle := length_le_of_beginsWith hplaces
    rw [hday, List.length_map] at hle
    rcases hle.eq_or_lt with heq | hlt
    · simp [hplaces, heq.symm]
    · rw [inTurn_hourTests hlt]
      simp [hplaces, hlt.ne']
  · simp [hplaces]

/-- Whether only ASCII characters pass a test. -/
def IsAscii (test : Char → Bool) : Prop :=
  ∀ c, test c = true → c.toNat < 0x80

private theorem isAscii_isDigit : IsAscii Char.isDigit := by
  intro c hdigit
  have hle := (Char.isDigit_iff_toNat.mp hdigit).2
  have hnine : '9'.toNat = 57 := rfl
  omega

private theorem isAscii_beq {mark : Char} (h : mark.toNat < 0x80) : IsAscii (· == mark) := by
  intro c hmark
  rwa [beq_iff_eq.mp hmark]

theorem isAscii_of_mem_places {test : Char → Bool} (h : test ∈ dayPlaces ++ hourPlaces) :
    IsAscii test := by
  simp only [dayPlaces, hourPlaces, List.mem_append, List.mem_cons, List.mem_replicate] at h
  have hdash : IsAscii (· == '-') := isAscii_beq (by decide)
  have hseparator : IsAscii fun c => c == 'T' || c == ' ' := by
    intro c hc
    rcases Bool.or_eq_true_iff.mp hc with hletter | hspace
    · exact isAscii_beq (by decide) c hletter
    · exact isAscii_beq (by decide) c hspace
  rcases h with (⟨-, rfl⟩ | rfl | ⟨-, rfl⟩ | rfl | ⟨-, rfl⟩) | rfl | ⟨-, rfl⟩
  exacts [isAscii_isDigit, hdash, isAscii_isDigit, hdash, isAscii_isDigit, hseparator, isAscii_isDigit]

/-- Bytes pass tests for ASCII characters as the characters do that they encode. -/
theorem beginsWith_utf8Bytes (h : ∀ test ∈ tests, IsAscii test) (cs : List Char) :
    beginsWith tests ((utf8Bytes cs).map byteChar) = beginsWith tests cs := by
  induction tests generalizing cs with
  | nil => rfl
  | cons test tests ih =>
    obtain ⟨htest, htests⟩ := List.forall_mem_cons.mp h
    cases cs with
    | nil => rfl
    | cons c cs =>
      rw [utf8Bytes_cons]
      by_cases hascii : c.toNat < 0x80
      · rw [utf8EncodeChar_of_ascii hascii, List.singleton_append, List.map_cons,
          byteChar_ofNat_toNat hascii, beginsWith, beginsWith, ih htests]
      · obtain ⟨byte, bytes, hbytes, hhigh⟩ := exists_utf8EncodeChar_eq_cons hascii
        have hbyte : test (byteChar byte) = false := by
          refine Bool.eq_false_iff.mpr fun hpass => ?_
          have hlow := htest _ hpass
          rw [toNat_byteChar] at hlow
          omega
        have hchar : test c = false := Bool.eq_false_iff.mpr fun hpass => hascii (htest c hpass)
        rw [hbytes, List.cons_append, List.map_cons, beginsWith, beginsWith, hbyte, hchar]
        rfl

theorem Digits.isAscii {width : Nat} (ds : Digits width) : ∀ c ∈ ds.chars, c.toNat < 0x80 :=
  fun c hc => isAscii_isDigit c (ds.isDigit c hc)

theorem DayText.isAscii (d : DayText) : ∀ c ∈ d.text, c.toNat < 0x80 := by
  have hdash : '-'.toNat < 0x80 := by decide
  intro c hc
  simp only [text, List.mem_append, List.mem_cons] at hc
  rcases hc with hyear | rfl | hmonth | rfl | hday
  exacts [d.year.isAscii c hyear, hdash, d.month.isAscii c hmonth, hdash, d.day.isAscii c hday]

/-- Behind a day there are as few bytes as there are characters: none. -/
theorem length_utf8Bytes_eq_ten_iff (h : beginsWith dayPlaces cs = true) :
    (utf8Bytes cs).length = 10 ↔ cs.length = 10 := by
  rw [← List.append_nil dayPlaces] at h
  obtain ⟨d, rest, rfl, -⟩ := beginsWith_dayPlaces_iff.mp h
  have hempty : (utf8Bytes rest).length = 0 ↔ rest.length = 0 := by
    cases rest with
    | nil => rfl
    | cons c rest =>
      have hpos := c.utf8Size_pos
      rw [utf8Bytes_cons, List.length_append, String.length_utf8EncodeChar, List.length_cons]
      omega
  rw [utf8Bytes_append, List.length_append, List.length_append, length_utf8Bytes_of_ascii d.isAscii, length_text]
  omega

/-- The shape of a text is that of its bytes. -/
theorem hasShape_utf8Bytes (cs : List Char) : hasShape ((utf8Bytes cs).map byteChar) = hasShape cs := by
  have hday := beginsWith_utf8Bytes
    (fun test htest => isAscii_of_mem_places (List.mem_append_left hourPlaces htest)) cs
  rw [hasShape, hasShape, beginsWith_utf8Bytes (fun _ => isAscii_of_mem_places) cs, hday, List.length_map]
  cases hplaces : beginsWith dayPlaces cs with
  | false => simp
  | true =>
    have hlength : ((utf8Bytes cs).length == 10) = (cs.length == 10) := by
      rw [Bool.eq_iff_iff, beq_iff_eq, beq_iff_eq]
      exact length_utf8Bytes_eq_ten_iff hplaces
    rw [hlength]

/-- No byte is looked for that is not there, and the shape found is the right one. -/
theorem shapeOfBytes?_eq (cs : List Char) : shapeOfBytes? (utf8Bytes cs) = some (hasShape cs) := by
  rw [shapeOfBytes?_eq_hasShape, hasShape_utf8Bytes]

/-! ## Minutes -/

/-- Whether the thirteenth byte is the last one, or something other than a colon follows it. -/
def lacksMinutes (bytes : List UInt8) : Bool :=
  bytes.length == 13 || bytes[13]?.any fun b => byteChar b != ':'

/-- The text with a colon and minutes after its thirteenth byte, if it lacks them. They can only be put in where
a character ends. -/
def withMinutesInBytes? (cs : List Char) : Option (List Char) :=
  if lacksMinutes (utf8Bytes cs) then
    (splitAtByte? 13 cs).map fun (before, after) => before ++ ':' :: '0' :: '0' :: after
  else some cs

/-- With its offset written out, a text of the right shape begins with ASCII: a day, or a day, a separator and
an hour. -/
theorem exists_start_of_hasShape (h : hasShape cs = true) :
    (∃ d : DayText, spellOutUtc cs = d.text) ∨
      ∃ start rest, spellOutUtc cs = start ++ rest ∧ start.length = 13 ∧ ∀ c ∈ start, c.toNat < 0x80 := by
  rcases hasShape_iff.mp h with ⟨d, rfl⟩ | ⟨d, separator, hour, rest, hseparator, rfl⟩
  · exact .inl ⟨d, spellOutUtc_eq_self (d.notMem_text (by decide) (by decide))⟩
  · have hsplit : d.text ++ separator :: (hour.chars ++ rest) = d.text ++ separator :: hour.chars ++ rest := by
      simp
    refine .inr ⟨d.text ++ separator :: hour.chars, spellOutUtc rest, ?_, length_text_cons d separator hour,
      fun c hc => ?_⟩
    · rw [hsplit, spellOutUtc_text_cons d hseparator]
    · rcases List.mem_append.mp hc with hday | htime
      · exact d.isAscii c hday
      · rcases List.mem_cons.mp htime with rfl | hhour
        · rcases hseparator with rfl | rfl <;> decide
        · exact hour.isAscii c hhour

section Start

variable {start : List Char} (hlength : start.length = 13) (hascii : ∀ c ∈ start, c.toNat < 0x80)
include hlength hascii

private theorem lacksMinutes_append (rest : List Char) :
    lacksMinutes (utf8Bytes (start ++ rest)) = !beginsWith [(· == ':')] rest := by
  have hstart : (utf8Bytes start).length = 13 := (length_utf8Bytes_of_ascii hascii).trans hlength
  have hcolon : ∀ test ∈ [(· == ':')], IsAscii test :=
    List.forall_mem_singleton.mpr (isAscii_beq (by decide))
  rw [← beginsWith_utf8Bytes hcolon, lacksMinutes, utf8Bytes_append, List.length_append, hstart,
    List.getElem?_append_right hstart.le, hstart]
  cases utf8Bytes rest with
  | nil => rfl
  | cons byte bytes =>
    have hmore : (13 + (byte :: bytes).length == 13) = false := by
      rw [beq_eq_false_iff_ne, List.length_cons]
      omega
    rw [hmore]
    simp [beginsWith, bne]

private theorem splitAtByte?_append (rest : List Char) : splitAtByte? 13 (start ++ rest) = some (start, rest) :=
  splitAtByte?_eq_some_iff.mpr ⟨rfl, (length_utf8Bytes_of_ascii hascii).trans hlength⟩

theorem withMinutesInBytes?_append (rest : List Char) :
    withMinutesInBytes? (start ++ rest) = some (withMinutes (start ++ rest)) := by
  rw [withMinutesInBytes?, lacksMinutes_append hlength hascii, splitAtByte?_append hlength hascii,
    withMinutes_append hlength]
  cases rest with
  | nil => rfl
  | cons c rest =>
    by_cases hc : c = ':'
    · simp [beginsWith, afterHour, hc]
    · simp [beginsWith, afterHour, hc]

end Start

private theorem lacksMinutes_text (d : DayText) : lacksMinutes (utf8Bytes d.text) = false := by
  have hlength : (utf8Bytes d.text).length = 10 := (length_utf8Bytes_of_ascii d.isAscii).trans (length_text d)
  rw [lacksMinutes, List.getElem?_eq_none (by omega), hlength]
  rfl

/-- Where minutes are put in, a character ends, and what they are put into is the normal form. -/
theorem withMinutesInBytes?_eq (h : hasShape cs = true) :
    withMinutesInBytes? (spellOutUtc cs) = some (normalForm cs) := by
  rw [normalForm]
  rcases exists_start_of_hasShape h with ⟨d, hday⟩ | ⟨start, rest, hspelled, hlength, hascii⟩
  · rw [hday, withMinutesInBytes?, lacksMinutes_text, if_neg Bool.false_ne_true]
    simp [withMinutes, length_text]
  · rw [hspelled, withMinutesInBytes?_append hlength hascii]

/-! ## Both -/

/-- The timestamp that a text denotes, found by looking at its bytes. There is no outcome if a byte is looked for
that is not there, or if minutes would have to be put inside a character. -/
def Timestamp.readInBytes? (cs : List Char) : Option (Option Timestamp) :=
  (shapeOfBytes? (utf8Bytes cs)).bind fun shape =>
    if shape then
      (withMinutesInBytes? (spellOutUtc cs)).map fun form => patterns.findSome? (readPattern? · form)
    else some none

theorem readInBytes?_eq (cs : List Char) : Timestamp.readInBytes? cs = some (Timestamp.read? cs) := by
  rw [Timestamp.readInBytes?, shapeOfBytes?_eq, Option.bind_some, read?_eq_byPatterns?, Timestamp.byPatterns?]
  by_cases hshape : hasShape cs = true
  · rw [if_pos hshape, if_pos hshape, withMinutesInBytes?_eq hshape, Option.map_some]
  · rw [if_neg hshape, if_neg hshape]

/-- **Reading a timestamp stays within the bytes of its text**, whatever the text is. The test of its shape looks
for no byte that is not there. Where minutes lack, which are put in after thirteen bytes, the text has so many
bytes and a character ends with them. So reading has an outcome, which is the timestamp that the text denotes or
that it denotes none. -/
theorem read?_within_bytes (s : String) :
    shapeOfBytes? s.toByteArray.data.toList = some (hasShape s.toList) ∧
    (hasShape s.toList = true → lacksMinutes (utf8Bytes (spellOutUtc s.toList)) = true →
      13 ≤ (String.ofList (spellOutUtc s.toList)).utf8ByteSize ∧
        (⟨13⟩ : String.Pos.Raw).IsValid (String.ofList (spellOutUtc s.toList))) ∧
    Timestamp.readInBytes? s.toList = some (Timestamp.read? s.toList) := by
  refine ⟨?_, fun hshape hlacks => ?_, readInBytes?_eq s.toList⟩
  · rw [← utf8Bytes_toList]
    exact shapeOfBytes?_eq s.toList
  · rcases exists_start_of_hasShape hshape with ⟨d, hday⟩ | ⟨start, rest, hspelled, hlength, hascii⟩
    · rw [hday, lacksMinutes_text] at hlacks
      cases hlacks
    · have hvalid : (⟨13⟩ : String.Pos.Raw).IsValid (String.ofList (spellOutUtc s.toList)) := by
        rw [← isSome_splitAtByte?_iff, hspelled, splitAtByte?_append hlength hascii]
        rfl
      exact ⟨hvalid.le_utf8ByteSize, hvalid⟩

/-- A minus sign of three bytes stands right after the hour. -/
theorem read?_within_bytes_minus :
    let s := "2024-02-29T21−02:30"
    hasShape s.toList = true ∧ lacksMinutes (utf8Bytes (spellOutUtc s.toList)) = true ∧
      (⟨13⟩ : String.Pos.Raw).IsValid (String.ofList (spellOutUtc s.toList)) ∧
      Timestamp.readInBytes? s.toList = some (some (.aware ⟨⟨2024, 2, 29⟩, 21, 0, 0, 0⟩ (-150))) := by
  intro s
  have hshape : hasShape s.toList = true := by decide
  have hlacks : lacksMinutes (utf8Bytes (spellOutUtc s.toList)) = true := by decide
  have hevening : Timestamp.read? s.toList = some (.aware ⟨⟨2024, 2, 29⟩, 21, 0, 0, 0⟩ (-150)) := by decide
  obtain ⟨-, hplace, hread⟩ := read?_within_bytes s
  rw [hevening] at hread
  exact ⟨hshape, hlacks, (hplace hshape hlacks).2, hread⟩

end Roster.Time
