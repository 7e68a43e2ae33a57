import Roster.Text.Order

/-!
# The order of encoded texts

`precedes` compares texts by code points. Their UTF-8 encodings, compared byte by byte, stand in the
same order (`precedes_iff_utf8Bytes_le`): of two characters the one with the smaller code point has
the smaller encoding, whatever follows the two (`utf8EncodeChar_append_lt`).
-/

namespace Roster.Text

/-- The bytes of a text in UTF-8. -/
def utf8Bytes (cs : List Char) : List UInt8 :=
  cs.flatMap String.utf8EncodeChar

theorem utf8Bytes_cons (c : Char) (cs : List Char) :
    utf8Bytes (c :: cs) = String.utf8EncodeChar c ++ utf8Bytes cs :=
  List.flatMap_cons

/-! ## Two characters -/

/-- The four lengths of an encoding, with the code points that have them. -/
theorem utf8EncodeChar_cases (c : Char) :
    (c.toNat ≤ 0x7F ∧ String.utf8EncodeChar c = [UInt8.ofNat c.toNat]) ∨
    (0x7F < c.toNat ∧ c.toNat ≤ 0x7FF ∧ String.utf8EncodeChar c =
      [UInt8.ofNat (c.toNat / 64 % 0x20 + 0xC0), UInt8.ofNat (c.toNat % 0x40 + 0x80)]) ∨
    (0x7FF < c.toNat ∧ c.toNat ≤ 0xFFFF ∧ String.utf8EncodeChar c =
      [UInt8.ofNat (c.toNat / 4096 % 0x10 + 0xE0), UInt8.ofNat (c.toNat / 64 % 0x40 + 0x80),
        UInt8.ofNat (c.toNat % 0x40 + 0x80)]) ∨
    (0xFFFF < c.toNat ∧ c.toNat < 0x110000 ∧ String.utf8EncodeChar c =
      [UInt8.ofNat (c.toNat / 262144 % 0x08 + 0xF0), UInt8.ofNat (c.toNat / 4096 % 0x40 + 0x80),
        UInt8.ofNat (c.toNat / 64 % 0x40 + 0x80), UInt8.ofNat (c.toNat % 0x40 + 0x80)]) := by
  have hlt : c.toNat < 0x110000 := by
    rcases c.valid with h | ⟨-, h⟩
    · exact Nat.lt_trans h (by decide)
    · exact h
  by_cases h₁ : c.toNat ≤ 0x7F
  · exact .inl ⟨h₁, if_pos h₁⟩
  by_cases h₂ : c.toNat ≤ 0x7FF
  · exact .inr (.inl ⟨by omega, h₂, (if_neg h₁).trans (if_pos h₂)⟩)
  by_cases h₃ : c.toNat ≤ 0xFFFF
  · exact .inr (.inr (.inl ⟨by omega, h₃, (if_neg h₁).trans <| (if_neg h₂).trans (if_pos h₃)⟩))
  · exact .inr (.inr (.inr ⟨by omega, hlt,
      (if_neg h₁).trans <| (if_neg h₂).trans (if_neg h₃)⟩))

/-- Of two characters the one with the smaller code point has the smaller encoding: the encodings
differ before either of them ends. -/
theorem utf8EncodeChar_append_lt {a b : Char} (h : a.toNat < b.toNat) (as bs : List UInt8) :
    String.utf8EncodeChar a ++ as < String.utf8EncodeChar b ++ bs := by
  rcases utf8EncodeChar_cases a with ⟨ha, ea⟩ | ⟨ha, ha', ea⟩ | ⟨ha, ha', ea⟩ | ⟨ha, ha', ea⟩ <;>
    rcases utf8EncodeChar_cases b with ⟨hb, eb⟩ | ⟨hb, hb', eb⟩ | ⟨hb, hb', eb⟩ | ⟨hb, hb', eb⟩ <;>
    rw [ea, eb] <;>
    simp only [List.cons_append, List.nil_append, List.cons_lt_cons_iff, UInt8.lt_iff_toNat_lt,
      ← UInt8.toNat_inj, UInt8.toNat_ofNat'] <;>
    simp (disch := omega) only [Nat.mod_eq_of_lt] <;>
    omega

/-! ## Two texts -/

/-- What two texts begin with in common does not count. -/
private theorem append_le_append_iff (bytes as bs : List UInt8) :
    bytes ++ as ≤ bytes ++ bs ↔ as ≤ bs := by
  induction bytes with
  | nil => rfl
  | cons byte bytes ih =>
    rw [List.cons_append, List.cons_append, List.cons_le_cons_iff, ih]
    simp

/-- Texts are in order exactly if their encodings are. -/
theorem precedes_iff_utf8Bytes_le {as bs : List Char} :
    precedes as bs = true ↔ utf8Bytes as ≤ utf8Bytes bs := by
  induction as generalizing bs with
  | nil => simp [precedes, utf8Bytes]
  | cons a as ih =>
    cases bs with
    | nil =>
      simp [precedes, utf8Bytes, String.utf8EncodeChar_ne_nil]
    | cons b bs =>
      simp only [precedes, utf8Bytes_cons]
      -- The first characters that differ decide, and so do their bytes: no encoding starts with another one.
      rcases Nat.lt_trichotomy a.toNat b.toNat with h | h | h
      · rw [if_pos h]
        simp [List.le_of_lt (utf8EncodeChar_append_lt h _ _)]
      · obtain rfl := Char.toNat_inj.mp h
        simp [ih, append_le_append_iff]
      · rw [if_neg (Nat.lt_asymm h), if_pos h]
        simp [utf8EncodeChar_append_lt h]

end Roster.Text
