/-!
# The order of texts

`precedes` orders texts by their characters' code points, the first difference deciding and a text
coming after its own beginnings. Code points and their UTF-8 encodings are in the same order, so
this is also the order of the encoded bytes.

The order is total (`precedes_total`), transitive (`precedes_trans`) and antisymmetric
(`precedes_antisymm`).
-/

namespace Roster.Text

/-- Whether the first text comes before the second or is equal to it. -/
def precedes : List Char → List Char → Bool
  | [], _ => true
  | _ :: _, [] => false
  | a :: as, b :: bs =>
    if a.toNat < b.toNat then true
    else if b.toNat < a.toNat then false
    else precedes as bs

theorem precedes_total (as bs : List Char) : precedes as bs = true ∨ precedes bs as = true := by
  induction as generalizing bs with
  | nil => simp [precedes]
  | cons a as ih =>
    match bs with
    | [] => simp [precedes]
    | b :: bs =>
      simp only [precedes]
      rcases Nat.lt_trichotomy a.toNat b.toNat with h | h | h
      · simp [h]
      · simp [h, ih]
      · simp [h, Nat.lt_asymm h]

theorem precedes_trans {as bs cs : List Char} (h : precedes as bs = true)
    (h' : precedes bs cs = true) : precedes as cs = true := by
  induction as generalizing bs cs with
  | nil => rfl
  | cons a as ih =>
    match bs, cs with
    | [], _ => simp [precedes] at h
    | _ :: _, [] => simp [precedes] at h'
    | b :: bs, c :: cs =>
      simp only [precedes] at h h' ⊢
      -- The earlier of the two first differences is the first one between the outer texts.
      split at h
      · split at h'
        · rw [if_pos (by omega)]
        · split at h'
          · contradiction
          · rw [if_pos (by omega)]
      · split at h
        · contradiction
        · split at h'
          · rw [if_pos (by omega)]
          · split at h'
            · contradiction
            · rw [if_neg (by omega), if_neg (by omega)]
              exact ih h h'

theorem precedes_antisymm {as bs : List Char} (h : precedes as bs = true)
    (h' : precedes bs as = true) : as = bs := by
  induction as generalizing bs with
  | nil => cases bs <;> simp_all [precedes]
  | cons a as ih =>
    match bs with
    | [] => simp [precedes] at h
    | b :: bs =>
      simp only [precedes] at h h'
      rcases Nat.lt_trichotomy a.toNat b.toNat with hab | hab | hab
      · simp [hab, Nat.lt_asymm hab] at h'
      · simp only [hab, Nat.lt_irrefl, if_false] at h h'
        rw [ih h h', Char.toNat_inj.1 hab]
      · simp [hab, Nat.lt_asymm hab] at h

end Roster.Text
