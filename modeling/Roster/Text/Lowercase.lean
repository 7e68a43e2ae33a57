import Roster.Text.CaseTable
import Roster.Text.Basic

/-!
# Lowercase text

`lower` is the full lowercase mapping of Unicode, without tailoring to a language:

* every character goes through its own mapping (`lowerChar`); only `İ` becomes two characters;
* a capital sigma that ends a word becomes `ς`, every other one `σ` (`endsWord`).

On ASCII text it changes the letters `A` to `Z` and nothing else (`lowerChar_of_ascii`).
-/

namespace Roster.Text

/-- Whether a character has the property that a table of ranges describes. -/
def inRanges (ranges : List (Nat × Nat)) (c : Char) : Bool :=
  ranges.any fun (first, last) => first ≤ c.toNat && c.toNat ≤ last

/-- The code point that the table of shifts gives for a code point, which may be itself. -/
def shifted (n : Nat) : Nat :=
  match lowercaseShifts.find? fun (first, last, step, _) =>
      first ≤ n && n ≤ last && (n - first) % step == 0 with
  | some (_, _, _, shift) => ((n : Int) + shift).toNat
  | none => n

/-- The lowercase form of a character on its own. -/
def lowerChar (c : Char) : List Char :=
  let n := c.toNat
  if n < 0x80 then
    if 0x41 ≤ n && n ≤ 0x5A then [Char.ofNat (n + 0x20)] else [c]
  else if n == 0x130 then ['i', '\u0307']
  else [Char.ofNat (shifted n)]

/-- Whether the nearest character that is not ignorable for case is a cased letter. -/
def startsCased (cs : List Char) : Bool :=
  match cs.dropWhile (inRanges caseIgnorableRanges) with
  | c :: _ => inRanges casedRanges c
  | [] => false

/-- Whether a letter between two texts, the first given in reverse, is the last of a word. -/
def endsWord (before after : List Char) : Bool :=
  startsCased before && !startsCased after

/-- The lowercase form of a text that follows `before`, which is given in reverse. -/
def lowerAfter (before : List Char) : List Char → List Char
  | [] => []
  | c :: cs =>
    (if c = 'Σ' then [if endsWord before cs then 'ς' else 'σ'] else lowerChar c)
      ++ lowerAfter (c :: before) cs

/-- The lowercase form of a text. -/
def lower (cs : List Char) : List Char :=
  lowerAfter [] cs

theorem lowerChar_of_ascii {c : Char} (h : c.toNat < 0x80) : lowerChar c = [c.toLower] := by
  have hc : c = Char.ofNat c.toNat := by simp
  generalize hn : c.toNat = n at *
  subst hc
  clear hn
  revert n
  decide

end Roster.Text
