import Roster.Number.Binary64
import Roster.Number.Whole

/-!
# Decimal literals

`binary64?` reads a number with an optional sign, a point and an exponent, each side of the point
possibly without digits but not both, or the name of an infinity or of the datum that is no number.
The result is the binary value nearest to the decimal. Only the name itself gives the datum that
is no number, so a text with a point in it never does.
-/

namespace Roster.Number

/-- Whether a text is a name, letter case aside. -/
def isName (name : String) (cs : List Char) : Bool :=
  cs.map Char.toLower == name.toList

/-- The exponent that a text denotes: nothing, or `e`, an optional sign and digits. -/
def exponentPart? : List Char → Option Int
  | [] => some 0
  | c :: cs => if c = 'e' ∨ c = 'E' then integer? cs else none

/-- The value nearest to the decimal that an unsigned literal denotes. -/
def unsignedLiteral? (negative : Bool) (cs : List Char) : Option Binary64 :=
  let whole := cs.takeWhile Char.isDigit
  let rest := cs.dropWhile Char.isDigit
  let (fraction, rest) :=
    match rest with
    | '.' :: rest => (rest.takeWhile Char.isDigit, rest.dropWhile Char.isDigit)
    | rest => ([], rest)
  if whole.isEmpty && fraction.isEmpty then none
  else
    (exponentPart? rest).map fun exponent =>
      .ofDecimal negative (Nat.ofDigitChars 10 (whole ++ fraction) 0) (exponent - fraction.length)

/-- The datum that a text denotes after its sign. -/
def unsignedBinary64? (negative : Bool) (cs : List Char) : Option Binary64 :=
  if isName "nan" cs then some .nan
  else if isName "inf" cs || isName "infinity" cs then some (.infinite negative)
  else unsignedLiteral? negative cs

/-- The datum that a text denotes. -/
def binary64? : List Char → Option Binary64
  | '-' :: cs => unsignedBinary64? true cs
  | '+' :: cs => unsignedBinary64? false cs
  | cs => unsignedBinary64? false cs

end Roster.Number
