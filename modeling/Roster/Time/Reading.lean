import Roster.Time.Timestamp
import Roster.Text.Basic
import Roster.Text.Blank

/-!
# Reading timestamps

`Timestamp.read?` accepts a date `YYYY-MM-DD`, alone or followed by `T` or a space and a time of
day. The time starts with two digits of hours. What may follow, each part only after the one
before it:

* `:` and the minutes, which are 0 if nothing or an offset follows the hour;
* `:` and the seconds, up to 60, with a point and digits of a fraction, of which nine count;
* an offset from UTC, or a final `Z` for the offset zero.

Minutes and seconds have one or two digits and may stand after blanks, as may the offset. Between
the hours and the minutes of an offset any number of colons and blanks may stand. The whole text
has to be used up.
-/

namespace Roster.Time

open Roster.Number Roster.Text

/-- Reads exactly `n` digits. -/
def digits? (n : Nat) (cs : List Char) : Option (Nat × List Char) :=
  let ds := cs.take n
  if ds.length == n && ds.all Char.isDigit then some (Nat.ofDigitChars 10 ds 0, cs.drop n)
  else none

/-- Reads one or two digits after any blanks. -/
def oneOrTwoDigits? (cs : List Char) : Option (Nat × List Char) :=
  let cs := trimStart cs
  match (cs.take 2).takeWhile Char.isDigit with
  | [] => none
  | ds => some (Nat.ofDigitChars 10 ds 0, cs.drop ds.length)

/-- Reads a date of four, two and two digits that exists in the calendar. -/
def date? (cs : List Char) : Option (Date × List Char) := do
  let (year, cs) ← digits? 4 cs
  let (month, cs) ← digits? 2 (← ['-'].isPrefixOf? cs)
  let (day, cs) ← digits? 2 (← ['-'].isPrefixOf? cs)
  let date : Date := ⟨year, month, day⟩
  if date.exists? then some (date, cs) else none

/-- Reads the fraction of a second, in nanoseconds, if there is one. -/
def fraction? : List Char → Option (Nat × List Char)
  | '.' :: cs =>
    match cs.takeWhile Char.isDigit with
    | [] => none
    | ds =>
      let kept := ds.take 9
      some (Nat.ofDigitChars 10 kept 0 * Nat.pow 10 (9 - kept.length), cs.dropWhile Char.isDigit)
  | cs => some (0, cs)

/-- Reads the seconds and their fraction, if a colon says that they follow. -/
def seconds? : List Char → Option (Nat × Nat × List Char)
  | ':' :: cs => do
    let (second, cs) ← oneOrTwoDigits? cs
    let (nanosecond, cs) ← fraction? cs
    if second ≤ 60 then some (second, nanosecond, cs) else none
  | cs => some (0, 0, cs)

/-- Reads the digits of an offset, in minutes: less than a day, with less than sixty minutes after
the hours. -/
def offsetDigits? (cs : List Char) : Option Nat := do
  let (hours, cs) ← digits? 2 cs
  let (minutes, cs) ← digits? 2 (cs.dropWhile fun c => c == ':' || isBlank c)
  if cs.isEmpty && hours < 24 && minutes < 60 then some (hours * 60 + minutes) else none

/-- Reads an offset, in minutes east, that ends the text. -/
def offset? (cs : List Char) : Option Int :=
  match trimStart cs with
  | '+' :: cs => (offsetDigits? cs).map Int.ofNat
  | '-' :: cs => (offsetDigits? cs).map fun n => -Int.ofNat n
  | '−' :: cs => (offsetDigits? cs).map fun n => -Int.ofNat n
  | _ => none

/-- The text with a final `Z` written out as an offset. -/
def spellOutUtc (cs : List Char) : List Char :=
  match cs.getLast? with
  | some 'Z' => cs.dropLast ++ ['+', '0', '0', ':', '0', '0']
  | _ => cs

/-- What follows the colon after the hour; without a colon the minutes are zero. -/
def afterHour : List Char → List Char
  | ':' :: cs => cs
  | cs => '0' :: '0' :: cs

/-- Reads what follows the hour of a day. -/
def afterHour? (date : Date) (hour : Nat) (cs : List Char) : Option Timestamp := do
  let (minute, cs) ← oneOrTwoDigits? (afterHour (spellOutUtc cs))
  let (second, nanosecond, cs) ← seconds? cs
  if hour < 24 && minute < 60 then
    let wall : WallTime := ⟨date, hour, minute, second, nanosecond⟩
    if cs.isEmpty then some (.naive wall) else (offset? cs).map (.aware wall)
  else none

/-- The timestamp that a text denotes. -/
def Timestamp.read? (cs : List Char) : Option Timestamp := do
  let (date, cs) ← date? cs
  match cs with
  | [] => some (.naive (.midnight date))
  | separator :: cs =>
    if separator = 'T' ∨ separator = ' ' then
      let (hour, cs) ← digits? 2 cs
      afterHour? date hour cs
    else none

end Roster.Time
