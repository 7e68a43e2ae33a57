import Roster.Failure
import Roster.Settings
import Roster.Text.Basic

/-!
# Socket addresses

`isSocketAddress` accepts an IPv4 address, or an IPv6 address in brackets with an optional scope,
followed by a colon and a port. Octets have no leading zeros. In an IPv6 address one row of zero
groups may be left out, and the last two groups may be written as an IPv4 address. A server listens
only on such an address (`ServerSettings.listenAddress`).
-/

namespace Roster.Web

open Text

/-- Reads up to `most` digits of a base, at least one of them, and gives their number. -/
def digitsUpTo? (base most : Nat) (cs : List Char) : Option (Nat × Nat × List Char) :=
  let isDigit (c : Char) : Bool :=
    c.isDigit || (base == 16 && (('a' ≤ c && c ≤ 'f') || ('A' ≤ c && c ≤ 'F')))
  let ds := cs.takeWhile isDigit
  if ds.isEmpty || most < ds.length then none
  else some (ds.length, if base == 10 then Nat.ofDigitChars 10 ds 0 else 0, cs.drop ds.length)

/-- Reads an octet. -/
def octet? (cs : List Char) : Option (List Char) := do
  let (count, value, rest) ← digitsUpTo? 10 3 cs
  if 256 ≤ value || (1 < count && cs.head? == some '0') then none else some rest

/-- Reads an IPv4 address. -/
def ipv4? (cs : List Char) : Option (List Char) := do
  let cs ← octet? cs
  let cs ← octet? (← ['.'].isPrefixOf? cs)
  let cs ← octet? (← ['.'].isPrefixOf? cs)
  octet? (← ['.'].isPrefixOf? cs)

/-- Reads up to `room` groups with colons between them, and tells how many there were and whether
the last two were written as an IPv4 address. -/
def groups (first : Bool) : Nat → List Char → Nat × Bool × List Char
  | 0, cs => (0, false, cs)
  | room + 1, cs =>
    match if first then some cs else [':'].isPrefixOf? cs with
    | none => (0, false, cs)
    | some start =>
      match if 0 < room then ipv4? start else none with
      | some rest => (2, true, rest)
      | none =>
        match digitsUpTo? 16 4 start with
        | none => (0, false, cs)
        | some (_, _, rest) =>
          let (n, embedded, rest) := groups false room rest
          (n + 1, embedded, rest)

/-- Reads an IPv6 address. -/
def ipv6? (cs : List Char) : Option (List Char) :=
  let (n, embedded, rest) := groups true 8 cs
  if n == 8 then some rest
  else if embedded then none
  else
    ([':', ':'].isPrefixOf? rest).map fun rest =>
      let (_, _, rest) := groups true (7 - n) rest
      rest

/-- Whether a text is a number below a bound. -/
def isNumberBelow (bound : Nat) (cs : List Char) : Bool :=
  match Number.natural? cs with
  | some n => n < bound
  | none => false

/-- Whether a text is a colon and a port. -/
def isPort : List Char → Bool
  | ':' :: cs => isNumberBelow UInt16.size cs
  | _ => false

/-- Whether a text is an optional scope, a closing bracket, a colon and a port. -/
def isScopeAndPort : List Char → Bool
  | ']' :: cs => isPort cs
  | '%' :: cs =>
    let scope := cs.takeWhile Char.isDigit
    match cs.dropWhile Char.isDigit with
    | ']' :: cs => isNumberBelow UInt32.size scope && isPort cs
    | _ => false
  | _ => false

/-- Whether a text is a socket address. -/
def isSocketAddress (text : String) : Bool :=
  match text.toList with
  | '[' :: cs => ((ipv6? cs).map isScopeAndPort).getD false
  | cs => ((ipv4? cs).map isPort).getD false

end Roster.Web

namespace Roster

/-- The address that a server with these settings listens on. -/
def ServerSettings.listenAddress (settings : ServerSettings) : Except Failure String :=
  if Web.isSocketAddress settings.address then .ok settings.address
  else .error (.settings (.badAddress settings.address))

end Roster
