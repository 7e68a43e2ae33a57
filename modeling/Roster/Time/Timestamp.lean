import Roster.Time.Calendar
import Roster.Number.Binary64
import Roster.Number.Whole

/-!
# Timestamps

A `Timestamp` is a wall time, with an offset from UTC (`aware`) or without one (`naive`).

* Two aware timestamps compare by the instants that they denote, two naive ones by their wall
  times. An aware and a naive timestamp do not compare (`compare?_isSome_iff`).
* A minute may have a second 60, which comes before the next minute.
* `text` writes a timestamp with a fraction of three, six or nine digits, or none.
-/

namespace Roster.Time

open Roster.Number

/-- A date and a time of day without an offset. -/
structure WallTime where
  date : Date
  hour : Nat
  minute : Nat
  /-- At most 60, the leap second. -/
  second : Nat
  nanosecond : Nat
  deriving Repr, DecidableEq

namespace WallTime

/-- The start of a day. -/
def midnight (date : Date) : WallTime :=
  ⟨date, 0, 0, 0, 0⟩

/-- The number of minutes since the start of the year 0. -/
def minutes (t : WallTime) : Nat :=
  t.date.dayNumber * 1440 + t.hour * 60 + t.minute

/-- A number that orders the wall times of places that are `offset` minutes east of UTC by the
instants they denote. Every minute has room for 61 seconds. -/
def rank (t : WallTime) (offset : Int) : Int :=
  (((t.minutes : Int) - offset) * 61 + t.second) * 1000000000 + t.nanosecond

/-- The fraction of a second: nothing, or a point and three, six or nine digits. -/
def fractionText (nanosecond : Nat) : List Char :=
  if nanosecond == 0 then []
  else if nanosecond % 1000000 == 0 then '.' :: padded 3 (nanosecond / 1000000)
  else if nanosecond % 1000 == 0 then '.' :: padded 6 (nanosecond / 1000)
  else '.' :: padded 9 nanosecond

/-- The wall time as `YYYY-MM-DD HH:MM:SS` and the fraction. -/
def text (t : WallTime) : List Char :=
  padded 4 t.date.year ++ '-' :: padded 2 t.date.month ++ '-' :: padded 2 t.date.day
    ++ ' ' :: padded 2 t.hour ++ ':' :: padded 2 t.minute ++ ':' :: padded 2 t.second
    ++ fractionText t.nanosecond

end WallTime

/-- A wall time, with its offset from UTC in minutes east or without one. -/
inductive Timestamp
  | aware (wall : WallTime) (offset : Int)
  | naive (wall : WallTime)
  deriving Repr, DecidableEq

namespace Timestamp

/-- Compares two timestamps of the same sort. -/
def compare? : Timestamp → Timestamp → Option Ordering
  | .aware a p, .aware b q => some (order (a.rank p) (b.rank q))
  | .naive a, .naive b => some (order (a.rank 0) (b.rank 0))
  | _, _ => none

/-- An offset as a sign, two digits of hours, a colon and two digits of minutes. -/
def offsetText (offset : Int) : List Char :=
  (if offset < 0 then '-' else '+') :: padded 2 (offset.natAbs / 60)
    ++ ':' :: padded 2 (offset.natAbs % 60)

/-- The timestamp as text. -/
def text : Timestamp → List Char
  | .aware wall offset => wall.text ++ offsetText offset
  | .naive wall => wall.text

/-- Whether a timestamp has an offset. -/
def isAware : Timestamp → Bool
  | .aware .. => true
  | .naive .. => false

/-- Two timestamps compare exactly if both have an offset or neither has. -/
theorem compare?_isSome_iff {a b : Timestamp} :
    (compare? a b).isSome = true ↔ a.isAware = b.isAware := by
  cases a <;> cases b <;> simp [compare?, isAware]

end Timestamp

end Roster.Time
