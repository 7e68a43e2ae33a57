import Roster.Json.Basic
import Roster.Number.Whole

/-!
# JSON literals

`literal?` reads the rest of a string after its opening quote, and `numeral?` reads a number. Each
gives back the text that follows. A literal that is well formed but names no value is accepted and
gives `none` as its value.

A number without a point and an exponent is an integer if it fits 64 bits, except that `-0` is a
floating-point zero. Every other number is read in two roundings: its leading digits, as many as
fit 64 bits, make a floating-point value, and that is then multiplied or divided by a power of ten.
-/

namespace Roster.Json

open Number

/-! ## Strings -/

/-- The value of a hexadecimal digit. -/
def hexValue? (c : Char) : Option Nat :=
  if c.isDigit then some (c.toNat - '0'.toNat)
  else if 'a'.toNat ≤ c.toNat && c.toNat ≤ 'f'.toNat then some (c.toNat - 'a'.toNat + 10)
  else if 'A'.toNat ≤ c.toNat && c.toNat ≤ 'F'.toNat then some (c.toNat - 'A'.toNat + 10)
  else none

/-- The number that four hexadecimal digits denote. -/
def hexNumber? (a b c d : Char) : Option Nat := do
  return (((← hexValue? a) * 16 + (← hexValue? b)) * 16 + (← hexValue? c)) * 16 + (← hexValue? d)

/-- The character that a letter stands for after a backslash. -/
def unescape? (c : Char) : Option Nat :=
  if c = '"' then some 0x22
  else if c = '\\' then some 0x5C
  else if c = '/' then some 0x2F
  else if c = 'b' then some 0x08
  else if c = 'f' then some 0x0C
  else if c = 'n' then some 0x0A
  else if c = 'r' then some 0x0D
  else if c = 't' then some 0x09
  else none

/-- The codes that a string holds up to its closing quote. An escape of four hexadecimal digits
gives one code, which may be half of a surrogate pair. -/
def codes? : List Char → Option (List Nat × List Char)
  | [] => none
  | '"' :: cs => some ([], cs)
  | '\\' :: 'u' :: a :: b :: c :: d :: cs => do
    let code ← hexNumber? a b c d
    let (codes, rest) ← codes? cs
    return (code :: codes, rest)
  | '\\' :: c :: cs => do
    let code ← unescape? c
    let (codes, rest) ← codes? cs
    return (code :: codes, rest)
  | c :: cs => do
    if c.toNat < 0x20 then none
    else
      let (codes, rest) ← codes? cs
      return (c.toNat :: codes, rest)

/-- The characters that codes denote, if every surrogate has its partner. -/
def characters? : List Nat → Option (List Char)
  | [] => some []
  | [n] => if 0xD800 ≤ n && n < 0xE000 then none else some [Char.ofNat n]
  | n :: m :: codes =>
    if 0xD800 ≤ n && n < 0xDC00 && 0xDC00 ≤ m && m < 0xE000 then
      (characters? codes).map (Char.ofNat (0x10000 + (n - 0xD800) * 0x400 + (m - 0xDC00)) :: ·)
    else if 0xD800 ≤ n && n < 0xE000 then none
    else (characters? (m :: codes)).map (Char.ofNat n :: ·)

/-- Reads a string after its opening quote. -/
def literal? (cs : List Char) : Option (Option String × List Char) :=
  (codes? cs).map fun (codes, rest) => ((characters? codes).map String.ofList, rest)

/-! ## Numbers -/

/-- The bound on the leading digits that are read exactly. -/
def digitLimit : Nat := UInt64.size

/-- The leading digits of the whole part as far as they fit, and how many are left out. -/
def wholeDigits (value : Nat) : List Char → Nat × Nat
  | [] => (value, 0)
  | d :: ds =>
    let next := value * 10 + (d.toNat - '0'.toNat)
    if next < digitLimit then wholeDigits next ds else (value, ds.length + 1)

/-- The leading digits with those of the fraction as far as they fit, and how many of these are
taken. -/
def fractionDigits (value taken : Nat) : List Char → Nat × Nat
  | [] => (value, taken)
  | d :: ds =>
    let next := value * 10 + (d.toNat - '0'.toNat)
    if next < digitLimit then fractionDigits next (taken + 1) ds else (value, taken)

/-- Multiplies or divides a value by a power of ten, in steps of `10 ^ 308` at most. There is no
value if the result is too great. -/
def scaled? (negative : Bool) : Nat → Binary64 → Int → Option Binary64
  | 0, value, _ => some value
  | steps + 1, value, exponent =>
    let power (n : Nat) : Binary64 := .ofFraction false (Nat.pow 10 n) 1
    if exponent.natAbs ≤ 308 then
      if 0 ≤ exponent then
        match value.mulMagnitude negative (power exponent.natAbs) with
        | .finite s m e => some (.finite s m e)
        | _ => none
      else some (value.divMagnitude negative (power exponent.natAbs))
    else
      match value with
      | .finite _ 0 _ => some (.zero negative)
      | value =>
        if 0 ≤ exponent then none
        else scaled? negative steps (value.divMagnitude negative (power 308)) (exponent + 308)

/-- The greatest exponent that is told apart from greater ones. -/
def exponentLimit : Nat := 0x80000000

/-- The value of leading digits times a power of ten that is the sum of a small exponent and one
that was written out. -/
def double? (negative : Bool) (digits : Nat) (start written : Int) : Option Binary64 :=
  if exponentLimit ≤ written.natAbs then
    if digits != 0 && 0 ≤ written then none else some (.zero negative)
  else scaled? negative 5 (.ofFraction negative digits 1) (start + written)

/-- Reads the exponent of a number, if there is one. -/
def exponent? : List Char → Option (Option Int × List Char)
  | [] => some (none, [])
  | c :: cs =>
    if c = 'e' ∨ c = 'E' then
      let (negative, cs) :=
        match cs with
        | '+' :: cs => (false, cs)
        | '-' :: cs => (true, cs)
        | cs => (false, cs)
      match cs.takeWhile Char.isDigit with
      | [] => none
      | ds =>
        let n : Int := (Nat.ofDigitChars 10 ds 0 : Nat)
        some (some (if negative then -n else n), cs.dropWhile Char.isDigit)
    else some (none, c :: cs)

/-- Reads the fraction of a number, if there is one. -/
def fraction? : List Char → Option (Option (List Char) × List Char)
  | '.' :: cs =>
    match cs.takeWhile Char.isDigit with
    | [] => none
    | ds => some (some ds, cs.dropWhile Char.isDigit)
  | cs => some (none, cs)

/-- Reads the whole part of a number: one zero, or digits that do not start with one. -/
def wholePart? (cs : List Char) : Option (List Char × List Char) :=
  match cs.takeWhile Char.isDigit with
  | [] => none
  | ['0'] => some (['0'], cs.drop 1)
  | '0' :: _ => none
  | ds => some (ds, cs.dropWhile Char.isDigit)

/-- The number that digits without point and exponent denote. -/
def wholeNumber? (negative : Bool) (ds : List Char) : Option JsonNumber :=
  let n := Nat.ofDigitChars 10 ds 0
  if !negative && n < UInt64.size then some (.integer n)
  else if negative && 0 < n && n ≤ 0x8000000000000000 then some (.integer (-(n : Int)))
  else
    let (digits, dropped) := wholeDigits 0 ds
    (double? negative digits dropped 0).map .double

/-- Reads an unsigned number. -/
def unsignedNumeral? (negative : Bool) (cs : List Char) :
    Option (Option JsonNumber × List Char) := do
  let (whole, cs) ← wholePart? cs
  let (fraction, cs) ← fraction? cs
  let (exponent, cs) ← exponent? cs
  match fraction, exponent with
  | none, none => return (wholeNumber? negative whole, cs)
  | fraction, exponent =>
    let (digits, dropped) := wholeDigits 0 whole
    let (digits, taken) := fractionDigits digits 0 (fraction.getD [])
    let value := double? negative digits ((dropped : Int) - taken) (exponent.getD 0)
    return (value.map .double, cs)

/-- Reads a number. -/
def numeral? : List Char → Option (Option JsonNumber × List Char)
  | '-' :: cs => unsignedNumeral? true cs
  | cs => unsignedNumeral? false cs

end Roster.Json
