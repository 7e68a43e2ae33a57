/-!
# Whole numbers in decimal

* `naturalText` and `integerText` write a number without leading zeros.
* `natural?` reads one or more ASCII digits, and `integer?` an optional sign before them. Leading
  zeros are accepted; blanks and digit separators are not.
* What is written is read back (`natural?_naturalText`, `integer?_integerText`).
* `integerIn?`, `int64?` and `naturalBelow?` refuse a number outside a range, and read every written
  number inside it (`int64?_integerText`, `naturalBelow?_naturalText`).
-/

namespace Roster.Number

/-- The digits of a natural number. -/
def naturalText (n : Nat) : List Char :=
  Nat.toDigits 10 n

/-- The digits of an integer, after a minus sign if it is negative. -/
def integerText (n : Int) : List Char :=
  if n < 0 then '-' :: naturalText n.natAbs else naturalText n.natAbs

/-- The number that a nonempty row of ASCII digits denotes. -/
def natural? (cs : List Char) : Option Nat :=
  if cs.isEmpty || !cs.all Char.isDigit then none else some (Nat.ofDigitChars 10 cs 0)

/-- The number that digits after an optional sign denote. -/
def integer? : List Char → Option Int
  | '-' :: cs => (natural? cs).map fun n => -Int.ofNat n
  | '+' :: cs => (natural? cs).map Int.ofNat
  | cs => (natural? cs).map Int.ofNat

/-- The number that digits after an optional plus sign denote. -/
def positive? : List Char → Option Nat
  | '+' :: cs => natural? cs
  | cs => natural? cs

/-- The integer between two bounds that a text denotes. -/
def integerIn? (least greatest : Int) (cs : List Char) : Option Int :=
  (integer? cs).filter fun n => least ≤ n && n ≤ greatest

/-- The signed word of 64 bits that a text denotes. -/
def int64? (cs : List Char) : Option Int64 :=
  (integerIn? Int64.minValue.toInt Int64.maxValue.toInt cs).map Int64.ofInt

/-- The natural number below a bound that a text denotes. -/
def naturalBelow? (bound : Nat) (cs : List Char) : Option Nat :=
  (positive? cs).filter fun n => n < bound

/-- A row of digits made as wide as `width` by zeros in front. -/
def padded (width n : Nat) : List Char :=
  List.replicate (width - (naturalText n).length) '0' ++ naturalText n

theorem isDigit_of_mem_naturalText {n : Nat} {c : Char} (h : c ∈ naturalText n) :
    c.isDigit = true :=
  Nat.isDigit_of_mem_toDigits (by decide) (by decide) h

theorem naturalText_ne_nil (n : Nat) : naturalText n ≠ [] :=
  Nat.toDigits_ne_nil

/-- What is written for a natural number is read as that number. -/
theorem natural?_naturalText (n : Nat) : natural? (naturalText n) = some n := by
  have hall : (naturalText n).all Char.isDigit = true :=
    List.all_eq_true.2 fun _ => isDigit_of_mem_naturalText
  have hne : (naturalText n).isEmpty = false :=
    List.isEmpty_eq_false_iff.2 (naturalText_ne_nil n)
  rw [natural?, hall, hne, naturalText, Nat.ofDigitChars_ten_toDigits]
  rfl

/-- What is written for an integer is read as that integer. -/
theorem integer?_integerText (n : Int) : integer? (integerText n) = some n := by
  unfold integerText
  split
  · rename_i h
    simp only [integer?, natural?_naturalText, Option.map_some, Option.some.injEq,
      Int.ofNat_eq_natCast]
    omega
  · rename_i h
    match hd : naturalText n.natAbs with
    | [] => exact absurd hd (naturalText_ne_nil _)
    | c :: cs =>
      -- A digit is no sign, so the digits are read as they are.
      have hc : c.isDigit = true := isDigit_of_mem_naturalText (n := n.natAbs) (by simp [hd])
      have hminus : c ≠ '-' := by rintro rfl; simp at hc
      have hplus : c ≠ '+' := by rintro rfl; simp at hc
      have : integer? (c :: cs) = (natural? (c :: cs)).map Int.ofNat := by
        unfold integer?
        split <;> simp_all
      rw [this, ← hd, natural?_naturalText, Option.map_some]
      congr 1
      simp only [Int.ofNat_eq_natCast]
      omega

theorem int64?_integerText (n : Int64) : int64? (integerText n.toInt) = some n := by
  have h : decide (Int64.minValue.toInt ≤ n.toInt) && decide (n.toInt ≤ Int64.maxValue.toInt) := by
    simp only [n.minValue_le_toInt, n.toInt_le, decide_true, Bool.and_self]
  rw [int64?, integerIn?, integer?_integerText, Option.filter_some, if_pos h, Option.map_some,
    Int64.ofInt_toInt]

theorem naturalBelow?_naturalText {bound n : Nat} (h : n < bound) :
    naturalBelow? bound (naturalText n) = some n := by
  have : positive? (naturalText n) = natural? (naturalText n) := by
    match hd : naturalText n with
    | [] => rfl
    | c :: cs =>
      have hc : c.isDigit = true := isDigit_of_mem_naturalText (n := n) (by simp [hd])
      unfold positive?
      split <;> simp_all
  simp [naturalBelow?, this, natural?_naturalText, h]

end Roster.Number
