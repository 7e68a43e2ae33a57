/-!
# Cutting and searching text

Texts are cut up as lists of characters.

* `cut? pat` cuts once, at the first occurrence of a pattern.
* `occursIn part text` decides whether one text is a contiguous part of another
  (`occursIn_iff`).
* `replaceAll` puts one text in the place of every occurrence of another.
-/

namespace Roster.Text

/-- The text before and after the first occurrence of a pattern, which itself is dropped. -/
def cut? (pat : List Char) : List Char → Option (List Char × List Char)
  | [] => if pat.isEmpty then some ([], []) else none
  | c :: cs =>
    match pat.isPrefixOf? (c :: cs) with
    | some rest => some ([], rest)
    | none => (cut? pat cs).map fun (before, after) => (c :: before, after)

/-- Whether `part` is a contiguous part of the text. -/
def occursIn (part : List Char) : List Char → Bool
  | [] => part.isEmpty
  | c :: cs => part.isPrefixOf (c :: cs) || occursIn part cs

/-- The text with every occurrence of `pat`, found from the left and without overlap, replaced. -/
def replaceAll (pat new : List Char) (text : List Char) : List Char :=
  go 0 text
where
  /-- `skip` characters of an occurrence already replaced are still to be passed over. -/
  go : Nat → List Char → List Char
    | _, [] => []
    | skip + 1, _ :: cs => go skip cs
    | 0, c :: cs =>
      if pat.isPrefixOf (c :: cs) then new ++ go (pat.length - 1) cs
      else c :: go 0 cs

theorem occursIn_iff {part cs : List Char} : occursIn part cs = true ↔ part <:+: cs := by
  induction cs with
  | nil => simp [occursIn]
  | cons c cs ih => simp [occursIn, ih, List.infix_cons_iff]

end Roster.Text
