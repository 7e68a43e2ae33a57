/-!
# Binary floating point with 64 bits

A `Binary64` is a signed multiple of a power of two, an infinity, or no number. All arithmetic is
on exact fractions of natural numbers, followed by one rounding to the nearest value with a tie
going to the even significand (`ofFraction`).

* `ofFraction` rounds a fraction, `ofDecimal` a decimal with any exponent, `ofInt` an integer.
* `compare?` orders two values by what they denote; it is undefined only for `nan`
  (`compare?_isSome`).
* `bits` is the interchange encoding.
-/

namespace Roster.Number

/-- Compares two integers. -/
def order (a b : Int) : Ordering :=
  if a < b then .lt else if b < a then .gt else .eq

/-- A binary floating-point datum of 64 bits. -/
inductive Binary64
  /-- The value `significand * 2 ^ exponent`, negated if `negative`. The significand is below
  `2 ^ 53`, and below `2 ^ 52` only with the least exponent, `-1074`. -/
  | finite (negative : Bool) (significand : Nat) (exponent : Int)
  | infinite (negative : Bool)
  | nan
  deriving Repr, DecidableEq

namespace Binary64

/-- The least exponent of a finite value. -/
def leastExponent : Int := -1074

/-- The least significand of 53 bits. -/
def leastFull : Nat := 1 <<< 52

/-- The greatest exponent of a finite value. -/
def greatestExponent : Int := 971

/-- Zero with a sign. -/
def zero (negative : Bool) : Binary64 :=
  .finite negative 0 leastExponent

/-- The natural number nearest to `num / den`; a tie goes to the even one. -/
def roundHalfEven (num den : Nat) : Nat :=
  let q := num / den
  let r := num % den
  if 2 * r < den then q
  else if den < 2 * r then q + 1
  else if q % 2 == 0 then q else q + 1

/-- The exponent `k` with `2 ^ k ≤ num / den < 2 ^ (k + 1)`, for a positive fraction. -/
def binaryExponent (num den : Nat) : Int :=
  let k : Int := (Nat.log2 num : Int) - Nat.log2 den
  if den <<< k.toNat ≤ num <<< (-k).toNat then k else k - 1

/-- The value nearest to `num / den`; a tie goes to the even significand. A fraction of
`2 ^ 1024` less half a unit or more gives an infinity. -/
def ofFraction (negative : Bool) (num den : Nat) : Binary64 :=
  if num == 0 then zero negative
  else
    let e := max (binaryExponent num den - 52) leastExponent
    let q := roundHalfEven (num <<< (-e).toNat) (den <<< e.toNat)
    if q == 2 * leastFull then pack leastFull (e + 1) else pack q e
where
  /-- A significand with its exponent, unless that is too great. -/
  pack (m : Nat) (e : Int) : Binary64 :=
    if greatestExponent < e then .infinite negative else .finite negative m e

/-- The value nearest to `m * 2 ^ e`. -/
def ofScaled (negative : Bool) (m : Nat) (e : Int) : Binary64 :=
  ofFraction negative (m <<< e.toNat) (1 <<< (-e).toNat)

/-- The value nearest to an integer. -/
def ofInt (n : Int) : Binary64 :=
  ofFraction (n < 0) n.natAbs 1

/-- The value nearest to `m * 10 ^ e`. Exponents that leave every finite value far behind are
answered without writing the power out. -/
def ofDecimal (negative : Bool) (m : Nat) (e : Int) : Binary64 :=
  if m == 0 then zero negative
  else
    let top : Int := e + (Nat.toDigits 10 m).length
    if 320 < top then .infinite negative
    else if top < -330 then zero negative
    else ofFraction negative (m * Nat.pow 10 e.toNat) (Nat.pow 10 (-e).toNat)

/-- The product of two values without their signs, for finite ones. -/
def mulMagnitude (negative : Bool) : Binary64 → Binary64 → Binary64
  | .finite _ m e, .finite _ m' e' => ofScaled negative (m * m') (e + e')
  | .nan, _ => .nan
  | _, .nan => .nan
  | _, _ => .infinite negative

/-- The quotient of a value by a positive one, both without their signs. -/
def divMagnitude (negative : Bool) : Binary64 → Binary64 → Binary64
  | .finite _ m e, .finite _ m' e' =>
    let d := e - e'
    ofFraction negative (m <<< d.toNat) (m' <<< (-d).toNat)
  | .nan, _ => .nan
  | _, .nan => .nan
  | .infinite _, _ => .infinite negative
  | _, .infinite _ => zero negative

/-- A finite value as a multiple of the least positive value. -/
def units (negative : Bool) (m : Nat) (e : Int) : Int :=
  let n : Int := ((m <<< (e - leastExponent).toNat : Nat) : Int)
  if negative then -n else n

/-- Compares two values; `nan` does not compare. -/
def compare? : Binary64 → Binary64 → Option Ordering
  | .nan, _ => none
  | _, .nan => none
  | .finite s m e, .finite s' m' e' => some (order (units s m e) (units s' m' e'))
  | .infinite s, .infinite s' =>
    some (if s == s' then .eq else if s then .lt else .gt)
  | .infinite s, .finite .. => some (if s then .lt else .gt)
  | .finite .., .infinite s => some (if s then .gt else .lt)

/-- The interchange encoding: sign, eleven bits of exponent, fifty-two bits of significand. -/
def bits : Binary64 → Nat
  | .nan => 0x7FF8000000000000
  | .infinite s => sign s + 0x7FF0000000000000
  | .finite s m e =>
    if m < leastFull then sign s + m
    else sign s + ((e - leastExponent).toNat + 1) * leastFull + (m - leastFull)
where
  /-- The sign bit. -/
  sign (s : Bool) : Nat := if s then 0x8000000000000000 else 0

/-- The integer that a finite value is equal to, without its sign. -/
def integral? (m : Nat) (e : Int) : Option Nat :=
  if 0 ≤ e then some (m <<< e.toNat)
  else if m % (1 <<< (-e).toNat) == 0 then some (m >>> (-e).toNat) else none

theorem order_self (a : Int) : order a a = .eq := by
  simp [order]

theorem order_eq_eq_iff {a b : Int} : order a b = .eq ↔ a = b := by
  unfold order
  rcases Int.lt_trichotomy a b with h | h | h
  · simp [h, Int.ne_of_lt h]
  · simp [h]
  · simp [h, Int.lt_asymm h, Int.ne_of_gt h]

theorem order_swap (a b : Int) : (order a b).swap = order b a := by
  unfold order
  rcases Int.lt_trichotomy a b with h | h | h
  · simp [h, Int.lt_asymm h]
  · simp [h]
  · simp [h, Int.lt_asymm h]

/-- Two values that are numbers compare. -/
theorem compare?_isSome {a b : Binary64} (ha : a ≠ .nan) (hb : b ≠ .nan) :
    (compare? a b).isSome = true := by
  cases a <;> cases b <;> simp_all [compare?]

end Binary64

end Roster.Number
