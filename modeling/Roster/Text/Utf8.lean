/-!
# UTF-8

`decode` turns bytes into characters. Bytes that belong to no character give `none`, once for each
longest row of bytes with which a character could have begun. `lossy` puts the replacement
character in their place, and `strict?` accepts only bytes without any.
-/

namespace Roster.Text

/-- How many further bytes a character with a given first byte has, and the bounds on the first of
them. -/
def lead? (b : Nat) : Option (Nat × Nat × Nat) :=
  if 0xC2 ≤ b && b ≤ 0xDF then some (1, 0x80, 0xBF)
  else if b == 0xE0 then some (2, 0xA0, 0xBF)
  else if b == 0xED then some (2, 0x80, 0x9F)
  else if 0xE1 ≤ b && b ≤ 0xEF then some (2, 0x80, 0xBF)
  else if b == 0xF0 then some (3, 0x90, 0xBF)
  else if b == 0xF4 then some (3, 0x80, 0x8F)
  else if 0xF1 ≤ b && b ≤ 0xF3 then some (3, 0x80, 0xBF)
  else none

/-- The bits of the first byte of a character that has `n` further bytes. -/
def leadBits (n b : Nat) : Nat :=
  if n == 1 then b % 0x20 else if n == 2 then b % 0x10 else b % 0x08

/-- Decodes bytes. `pending` further bytes, of which the next lies between `low` and `high`, belong
to a character whose bits so far are `value`; nothing is pending between characters. -/
def decodeFrom (pending low high value : Nat) : List UInt8 → List (Option Char)
  | [] => if pending == 0 then [] else [none]
  | b :: bytes =>
    let n := b.toNat
    if 0 < pending && low ≤ n && n ≤ high then
      let value := value * 0x40 + n % 0x40
      if pending == 1 then some (Char.ofNat value) :: decodeFrom 0 0 0 0 bytes
      else decodeFrom (pending - 1) 0x80 0xBF value bytes
    else
      let cut := if 0 < pending then [none] else []
      if n < 0x80 then cut ++ some (Char.ofNat n) :: decodeFrom 0 0 0 0 bytes
      else
        match lead? n with
        | some (more, low, high) => cut ++ decodeFrom more low high (leadBits more n) bytes
        | none => cut ++ none :: decodeFrom 0 0 0 0 bytes

/-- The characters that bytes encode, and `none` for bytes that belong to no character. -/
def decode (bytes : List UInt8) : List (Option Char) :=
  decodeFrom 0 0 0 0 bytes

/-- The text that bytes encode, with a replacement character where they encode nothing. -/
def lossy (bytes : List UInt8) : String :=
  String.ofList ((decode bytes).map fun c => c.getD '\uFFFD')

/-- The text that bytes encode, if all of them belong to characters. -/
def strict? (bytes : List UInt8) : Option String :=
  ((decode bytes).mapM id).map String.ofList

/-- The bytes of a text. -/
def encode (s : String) : List UInt8 :=
  s.toUTF8.toList

end Roster.Text
