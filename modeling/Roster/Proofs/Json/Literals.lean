import Mathlib.Tactic.SplitIfs
import Roster.Json.Literal
import Roster.Json.Printer

/-!
# JSON literals read back

- **Strings** (`literal?_stringText`): what is written of a text between its quotes is read as that
  text, one character after the other (`codes?_escape_append`).
- **Integers** (`numeral?_integerText`): an integer of 64 bits, with or without a sign, is read as
  such, if what follows it does not go on with the number (`EndsNumber`).
-/

namespace Roster.Json

open Number

variable {c : Char} {cs rest : List Char}

/-! ## Strings -/

private theorem hexNumber?_hexDigit :
    ∀ n < 0x20, hexNumber? '0' '0' (hexDigit (n / 16)) (hexDigit n) = some n := by
  decide

/-- A character that stands for itself is read as such. -/
private theorem codes?_cons (hquote : c ≠ '"') (hslash : c ≠ '\\') (hcontrol : ¬ c.toNat < 0x20)
    (cs : List Char) :
    codes? (c :: cs) = (codes? cs).map fun (codes, rest) => (c.toNat :: codes, rest) := by
  -- Of the cases of the reader the last one is left: the others start with a quotation mark or a backslash.
  rw [codes?.eq_def]
  split
  · rename_i h
    cases h
  · rename_i h
    exact absurd (List.cons.inj h).1 hquote
  · rename_i h
    exact absurd (List.cons.inj h).1 hslash
  · rename_i h
    exact absurd (List.cons.inj h).1 hslash
  · rename_i h
    obtain ⟨rfl, rfl⟩ := List.cons.inj h
    rw [if_neg hcontrol]
    cases codes? cs <;> rfl

/-- A letter after a backslash is read as what it stands for. -/
private theorem codes?_letter {code : Nat} (hletter : c ≠ 'u') (hcode : unescape? c = some code)
    (cs : List Char) :
    codes? ('\\' :: c :: cs) = (codes? cs).map fun (codes, rest) => (code :: codes, rest) := by
  -- The cases stand as in the reader, and but for one the characters rule them out.
  rw [codes?.eq_def]
  split
  · rename_i h
    cases h
  · rename_i h
    cases h
  · rename_i h
    exact absurd (List.cons.inj (List.cons.inj h).2).1 hletter
  · rename_i h
    obtain ⟨rfl, rfl⟩ := List.cons.inj (List.cons.inj h).2
    rw [hcode]
    cases codes? cs <;> rfl
  · rename_i hother h
    obtain ⟨rfl, rfl⟩ := List.cons.inj h
    exact absurd rfl (hother c cs rfl)

/-- Four hexadecimal digits are read as their number. -/
private theorem codes?_hexNumber {code : Nat} {w x y z : Char} (hcode : hexNumber? w x y z = some code)
    (cs : List Char) :
    codes? ('\\' :: 'u' :: w :: x :: y :: z :: cs)
      = (codes? cs).map fun (codes, rest) => (code :: codes, rest) := by
  rw [codes?, hcode]
  cases codes? cs <;> rfl

/-- A character is read from what is written for it. -/
theorem codes?_escape_append (c : Char) (cs : List Char) :
    codes? (escape c ++ cs) = (codes? cs).map fun (codes, rest) => (c.toNat :: codes, rest) := by
  unfold escape
  split_ifs with hquote hslash h₁ h₂ h₃ h₄ h₅ hcontrol
  -- Seven characters have a letter of their own.
  iterate 7
    · subst c
      exact codes?_letter (by decide) (by decide) cs
  · exact codes?_hexNumber (hexNumber?_hexDigit c.toNat hcontrol) cs
  · exact codes?_cons hquote hslash hcontrol cs

theorem codes?_flatMap_escape (cs rest : List Char) :
    codes? (cs.flatMap escape ++ '"' :: rest) = some (cs.map Char.toNat, rest) := by
  induction cs with
  | nil => rfl
  | cons c cs ih => rw [List.flatMap_cons, List.append_assoc, codes?_escape_append, ih]; rfl

/-- No character is half of a surrogate pair. -/
private theorem toNat_lt_or_le (c : Char) : c.toNat < 0xD800 ∨ 0xE000 ≤ c.toNat :=
  c.valid.imp_right And.left

theorem characters?_map_toNat (cs : List Char) : characters? (cs.map Char.toNat) = some cs := by
  induction cs with
  | nil => rfl
  | cons c cs ih =>
    -- Characters are no surrogates, so the codes are taken one by one.
    have hc := toNat_lt_or_le c
    have hsingle : ¬ (0xD800 ≤ c.toNat && c.toNat < 0xE000) = true := by
      rw [Bool.and_eq_true, decide_eq_true_iff, decide_eq_true_iff]
      omega
    cases cs with
    | nil =>
      rw [List.map_cons, List.map_nil, characters?, if_neg hsingle, Char.ofNat_toNat]
    | cons d cs =>
      have hpair : ¬ (0xD800 ≤ c.toNat && c.toNat < 0xDC00 && 0xDC00 ≤ d.toNat &&
          d.toNat < 0xE000) = true := by
        simp only [Bool.and_eq_true, decide_eq_true_iff]
        omega
      rw [List.map_cons] at ih
      rw [List.map_cons, List.map_cons, characters?, if_neg hpair, if_neg hsingle, ih,
        Char.ofNat_toNat]
      rfl

/-- What is written of a text is read as that text. -/
theorem literal?_flatMap_escape (s : String) (rest : List Char) :
    literal? (s.toList.flatMap escape ++ '"' :: rest) = some (some s, rest) := by
  have hcharacters : (characters? (s.toList.map Char.toNat)).map String.ofList = some s := by
    rw [characters?_map_toNat, Option.map_some, String.ofList_toList]
  rw [literal?, codes?_flatMap_escape, Option.map_some]
  exact congrArg (fun text => some (text, rest)) hcharacters

/-! ## Integers -/

/-- Whether a text does not go on with a number that stands before it. -/
def EndsNumber (rest : List Char) : Prop :=
  ∀ c ∈ rest.head?, c.isDigit = false ∧ c ≠ '.' ∧ c ≠ 'e' ∧ c ≠ 'E'

/-- Only zero is written with a zero in front. -/
private theorem eq_zero_of_head?_naturalText {n : Nat} (h : (naturalText n).head? = some '0') : n = 0 := by
  induction n using Nat.strongRecOn with
  | ind n ih =>
    by_cases hlt : n < 10
    · rw [naturalText, Nat.toDigits_of_lt_base hlt, List.head?_cons, Option.some.injEq,
        Nat.digitChar_eq_zero] at h
      exact h
    · have htext : naturalText n = naturalText (n / 10) ++ [(n % 10).digitChar] :=
        Nat.toDigits_of_base_le (by decide) (Nat.le_of_not_lt hlt)
      obtain ⟨d, ds, hds⟩ := List.exists_cons_of_ne_nil (naturalText_ne_nil (n / 10))
      rw [htext, hds] at h
      have hzero : n / 10 = 0 := ih (n / 10) (by omega) (by rw [hds]; exact h)
      omega

private theorem takeWhile_isDigit_eq_nil (h : EndsNumber rest) : rest.takeWhile Char.isDigit = [] := by
  cases rest with
  | nil => rfl
  | cons c rest => rw [List.takeWhile_cons_of_neg (by simp [(h c rfl).1])]

private theorem dropWhile_isDigit_eq_self (h : EndsNumber rest) : rest.dropWhile Char.isDigit = rest := by
  cases rest with
  | nil => rfl
  | cons c rest => rw [List.dropWhile_cons_of_neg (by simp [(h c rfl).1])]

private theorem takeWhile_naturalText_append (n : Nat) (h : EndsNumber rest) :
    (naturalText n ++ rest).takeWhile Char.isDigit = naturalText n := by
  rw [List.takeWhile_append_of_pos fun _ => isDigit_of_mem_naturalText,
    takeWhile_isDigit_eq_nil h, List.append_nil]

private theorem dropWhile_naturalText_append (n : Nat) (h : EndsNumber rest) :
    (naturalText n ++ rest).dropWhile Char.isDigit = rest := by
  rw [List.dropWhile_append_of_pos fun _ => isDigit_of_mem_naturalText,
    dropWhile_isDigit_eq_self h]

theorem wholePart?_naturalText_append (n : Nat) (h : EndsNumber rest) :
    wholePart? (naturalText n ++ rest) = some (naturalText n, rest) := by
  have htake := takeWhile_naturalText_append n h
  have hdrop := dropWhile_naturalText_append n h
  rw [wholePart?, htake]
  split
  · rename_i hnil
    exact absurd hnil (naturalText_ne_nil n)
  · rename_i hzero
    rw [hzero]
    rfl
  · rename_i ds hne hzero
    -- The reader refuses digits after a zero, but only the number 0 starts with one.
    obtain rfl := eq_zero_of_head?_naturalText (n := n) (by rw [hzero]; rfl)
    have hsingle : naturalText 0 = ['0'] := Nat.toDigits_zero 10
    exact absurd (List.cons.inj (hzero.symm.trans hsingle)).2 hne
  · rw [hdrop]

theorem fraction?_eq_none (h : EndsNumber rest) : fraction? rest = some (none, rest) := by
  rw [fraction?.eq_def]
  split
  · exact absurd rfl (h '.' rfl).2.1
  · rfl

theorem exponent?_eq_none (h : EndsNumber rest) : exponent? rest = some (none, rest) := by
  cases rest with
  | nil => rfl
  | cons c rest =>
    obtain ⟨-, -, he, hE⟩ := h c rfl
    exact if_neg (not_or.mpr ⟨he, hE⟩)

theorem unsignedNumeral?_naturalText_append (negative : Bool) (n : Nat) (h : EndsNumber rest) :
    unsignedNumeral? negative (naturalText n ++ rest)
      = some (wholeNumber? negative (naturalText n), rest) := by
  simp only [unsignedNumeral?, wholePart?_naturalText_append n h, fraction?_eq_none h,
    exponent?_eq_none h, Option.bind_eq_bind, Option.bind_some]
  rfl

/-- The integers that 64 bits hold, with or without a sign. -/
def IsWord (n : Int) : Prop :=
  -0x8000000000000000 ≤ n ∧ n < UInt64.size

theorem wholeNumber?_naturalText {n : Int} (h : IsWord n) :
    wholeNumber? (decide (n < 0)) (naturalText n.natAbs) = some (.integer n) := by
  obtain ⟨hleast, hgreatest⟩ := h
  simp only [wholeNumber?, naturalText, Nat.ofDigitChars_ten_toDigits]
  by_cases hneg : n < 0
  · have hbound : (decide (n < 0) && decide (0 < n.natAbs)
        && decide (n.natAbs ≤ 0x8000000000000000)) = true := by
      simp only [Bool.and_eq_true, decide_eq_true_iff]
      omega
    have hsigned : ¬ (!decide (n < 0) && decide (n.natAbs < UInt64.size)) = true := by
      simp [hneg]
    have habs : -(n.natAbs : Int) = n := by omega
    rw [if_neg hsigned, if_pos hbound, habs]
  · have hbound : (!decide (n < 0) && decide (n.natAbs < UInt64.size)) = true := by
      simp only [Bool.and_eq_true, Bool.not_eq_true', decide_eq_true_iff, decide_eq_false_iff_not]
      omega
    have habs : (n.natAbs : Int) = n := by omega
    rw [if_pos hbound, habs]

/-- An integer of 64 bits is read back. -/
theorem numeral?_integerText_append {n : Int} (hn : IsWord n) (h : EndsNumber rest) :
    numeral? (integerText n ++ rest) = some (some (.integer n), rest) := by
  have hread := unsignedNumeral?_naturalText_append (decide (n < 0)) n.natAbs h
  rw [wholeNumber?_naturalText hn] at hread
  by_cases hneg : n < 0
  · rw [decide_eq_true hneg] at hread
    rw [integerText, if_pos hneg]
    exact hread
  · rw [decide_eq_false hneg] at hread
    rw [integerText, if_neg hneg]
    obtain ⟨d, ds, hds⟩ := List.exists_cons_of_ne_nil (naturalText_ne_nil n.natAbs)
    have hminus : d ≠ '-' := by
      rintro rfl
      exact absurd (isDigit_of_mem_naturalText (hds ▸ List.mem_cons_self)) (by decide)
    rw [hds, List.cons_append] at hread ⊢
    rw [numeral?.eq_def]
    split
    · rename_i h
      exact absurd (List.cons.inj h).1 hminus
    · exact hread

end Roster.Json
