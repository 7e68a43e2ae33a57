import Roster.Number.Binary64
import Roster.Number.Whole

/-!
# Shortest decimals

The decimals that round to a given binary value form an interval around it, which holds its ends
if the significand is even. `shortest` is the decimal of that interval with the fewest digits, and
the one nearest to the value among those; `Tie` says which of two equally near ones it is.

The search is exact. It goes through the grids `10 ^ p` from coarse to fine and tests the two
neighbours of the value on each: if any point of a grid lies in the interval, one of these does.

`positionalText` and `scientificText` write a decimal.
-/

namespace Roster.Number

/-- A positive decimal, `digits * 10 ^ exponent`. -/
structure Decimal where
  digits : Nat
  exponent : Int
  deriving Repr, DecidableEq

/-- Which of two equally near decimals is taken. -/
inductive Tie
  | up
  | even
  deriving Repr, DecidableEq

namespace Decimal

/-- The number of digits. -/
def length (d : Decimal) : Nat :=
  (naturalText d.digits).length

/-- The decimal with the zeros at the end of its digits moved into the exponent. -/
def normalize (d : Decimal) : Decimal :=
  go d.digits d
where
  /-- Each step drops one zero. -/
  go : Nat → Decimal → Decimal
    | 0, d => d
    | fuel + 1, d =>
      if d.digits % 10 == 0 && d.digits != 0 then go fuel ⟨d.digits / 10, d.exponent + 1⟩ else d

/-- Digits in full, with zeros up to the decimal point or after it. -/
def positionalText (d : Decimal) : List Char :=
  let ds := naturalText d.digits
  if 0 ≤ d.exponent then ds ++ List.replicate d.exponent.toNat '0'
  else
    let places := (-d.exponent).toNat
    if places < ds.length then
      ds.take (ds.length - places) ++ '.' :: ds.drop (ds.length - places)
    else '0' :: '.' :: List.replicate (places - ds.length) '0' ++ ds

/-- One digit, the others after a point, and after an `e` the exponent with its sign. -/
def scientificText (d : Decimal) : List Char :=
  let ds := naturalText d.digits
  let exponent := d.exponent + ds.length - 1
  let mantissa :=
    match ds with
    | [] => []
    | [c] => [c]
    | c :: cs => c :: '.' :: cs
  mantissa ++ 'e' :: (if 0 ≤ exponent then ['+'] else []) ++ integerText exponent

end Decimal

/-- The interval of decimals that round to `m * 2 ^ e`, as numerators over one denominator:
value, lower end, upper end, denominator. -/
def roundingInterval (m : Nat) (e : Int) : Nat × Nat × Nat × Nat :=
  let below := if m == Binary64.leastFull && Binary64.leastExponent < e then 1 else 2
  let up := (e - 2).toNat
  ((4 * m) <<< up, (4 * m - below) <<< up, (4 * m + 2) <<< up, 1 <<< (2 - e).toNat)

/-- The exponent `k` with `10 ^ k ≤ num / den < 10 ^ (k + 1)`, for a positive fraction that is not
a negative power of ten. -/
def decimalExponent (num den : Nat) : Int :=
  if den ≤ num then ((naturalText (num / den)).length : Int) - 1
  else -((naturalText (den / num)).length : Int)

/-- The shortest decimal that rounds to `m * 2 ^ e`, and the nearest of the shortest. -/
def shortest (tie : Tie) (m : Nat) (e : Int) : Decimal :=
  let (value, low, high, den) := roundingInterval m e
  search value low high den 18 (decimalExponent value den)
where
  /-- Looks for a decimal on the grid `10 ^ p`, and if there is none on the finer ones. -/
  search (value low high den : Nat) : Nat → Int → Decimal
    | 0, p => ⟨value, p⟩
    | fuel + 1, p =>
      let grid := den * Nat.pow 10 p.toNat
      let scale := Nat.pow 10 (-p).toNat
      let floor := value * scale / grid
      let inside (n : Nat) : Bool :=
        let x := n * grid
        if m % 2 == 0 then low * scale ≤ x && x ≤ high * scale
        else low * scale < x && x < high * scale
      let fromFloor := value * scale - floor * grid
      let toCeiling := (floor + 1) * grid - value * scale
      let ceilingNearer :=
        toCeiling < fromFloor ||
          (toCeiling == fromFloor &&
            match tie with
            | .up => true
            | .even => floor % 2 == 1)
      match inside floor, inside (floor + 1) with
      | false, false => search value low high den fuel (p - 1)
      | true, false => Decimal.normalize ⟨floor, p⟩
      | false, true => Decimal.normalize ⟨floor + 1, p⟩
      | true, true => Decimal.normalize ⟨if ceilingNearer then floor + 1 else floor, p⟩

end Roster.Number
