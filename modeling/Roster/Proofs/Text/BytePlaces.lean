import Roster.Proofs.Text.ByteOrder

/-!
# Places in encoded texts

- **ASCII** (`utf8Bytes_of_ascii`): characters below U+0080 have one byte each, which is their code point. The
  first byte of any other character is no such byte (`exists_utf8EncodeChar_eq_cons`).
- **Places** (`splitAtByte?_eq_some_iff`): a text can be parted after some number of bytes if a character ends
  there. These are the places that strings have (`isSome_splitAtByte?_iff`).
-/

namespace Roster.Text

variable {c : Char} {cs before after : List Char} {n : Nat}

theorem utf8Bytes_append (as bs : List Char) : utf8Bytes (as ++ bs) = utf8Bytes as ++ utf8Bytes bs :=
  List.flatMap_append

/-- The bytes of a text are those of the string that it is. -/
theorem utf8Bytes_toList (s : String) : utf8Bytes s.toList = s.toByteArray.data.toList := by
  have hbytes : (String.ofList s.toList).toByteArray.data.toList = utf8Bytes s.toList := by
    rw [String.toByteArray_ofList, List.utf8Encode, List.toList_data_toByteArray, utf8Bytes]
  rw [← hbytes, String.ofList_toList]

theorem length_utf8Bytes (cs : List Char) : (utf8Bytes cs).length = (String.ofList cs).utf8ByteSize := by
  have h := congrArg List.length (utf8Bytes_toList (String.ofList cs))
  rwa [String.toList_ofList] at h

/-! ## ASCII -/

theorem utf8EncodeChar_of_ascii (h : c.toNat < 0x80) :
    String.utf8EncodeChar c = [UInt8.ofNat c.toNat] := by
  rcases utf8EncodeChar_cases c with ⟨-, hbytes⟩ | ⟨hlt, -⟩ | ⟨hlt, -⟩ | ⟨hlt, -⟩
  · exact hbytes
  all_goals omega

theorem exists_utf8EncodeChar_eq_cons (h : ¬ c.toNat < 0x80) :
    ∃ byte bytes, String.utf8EncodeChar c = byte :: bytes ∧ 0x80 ≤ byte.toNat := by
  rcases utf8EncodeChar_cases c with ⟨hle, -⟩ | ⟨-, -, hbytes⟩ | ⟨-, -, hbytes⟩ | ⟨-, -, hbytes⟩
  · omega
  all_goals
    refine ⟨_, _, hbytes, ?_⟩
    rw [UInt8.toNat_ofNat']
    omega

theorem utf8Bytes_of_ascii (h : ∀ c ∈ cs, c.toNat < 0x80) :
    utf8Bytes cs = cs.map fun c => UInt8.ofNat c.toNat := by
  induction cs with
  | nil => rfl
  | cons c cs ih =>
    obtain ⟨hc, hcs⟩ := List.forall_mem_cons.mp h
    rw [utf8Bytes_cons, utf8EncodeChar_of_ascii hc, ih hcs]
    rfl

theorem length_utf8Bytes_of_ascii (h : ∀ c ∈ cs, c.toNat < 0x80) : (utf8Bytes cs).length = cs.length := by
  rw [utf8Bytes_of_ascii h, List.length_map]

/-- The character that has a byte as its code point. -/
def byteChar (b : UInt8) : Char :=
  Char.ofNat b.toNat

theorem toNat_byteChar (b : UInt8) : (byteChar b).toNat = b.toNat := by
  have hlt := b.toNat_lt
  have hvalid : b.toNat.isValidChar := .inl (by omega)
  rw [byteChar, Char.ofNat, dif_pos hvalid]
  rfl

theorem byteChar_ofNat_toNat (h : c.toNat < 0x80) : byteChar (UInt8.ofNat c.toNat) = c := by
  rw [byteChar, UInt8.toNat_ofNat', Nat.mod_eq_of_lt (by omega), Char.ofNat_toNat]

/-! ## Places -/

/-- The parts of a text before and after its first `n` bytes. There are none if the text has fewer bytes, or if
the byte is not the last one of a character. -/
def splitAtByte? : Nat → List Char → Option (List Char × List Char)
  | 0, cs => some ([], cs)
  | _ + 1, [] => none
  | n + 1, c :: cs =>
    if c.utf8Size ≤ n + 1 then
      (splitAtByte? (n + 1 - c.utf8Size) cs).map fun (before, after) => (c :: before, after)
    else none

theorem splitAtByte?_eq_some_iff :
    splitAtByte? n cs = some (before, after) ↔ cs = before ++ after ∧ (utf8Bytes before).length = n := by
  have hlength (c : Char) (cs : List Char) :
      (utf8Bytes (c :: cs)).length = c.utf8Size + (utf8Bytes cs).length := by
    rw [utf8Bytes_cons, List.length_append, String.length_utf8EncodeChar]
  fun_induction splitAtByte? n cs generalizing before after with
  | case1 cs =>
    cases before with
    | nil => simp [utf8Bytes]
    | cons b before =>
      have hpos := b.utf8Size_pos
      have hne := hlength b before
      simp only [Option.some.injEq, Prod.mk.injEq, reduceCtorEq, false_and, false_iff, not_and]
      omega
  | case2 n =>
    simp only [reduceCtorEq, false_iff, not_and]
    intro hnil
    rw [(List.append_eq_nil_iff.mp hnil.symm).1]
    simp [utf8Bytes]
  | case3 n c cs hle ih =>
    cases before with
    | nil => simp [utf8Bytes]
    | cons b before =>
      simp only [Option.map_eq_some_iff, Prod.exists, Prod.mk.injEq, List.cons.injEq, ih,
        List.cons_append, hlength]
      constructor
      · rintro ⟨_, _, ⟨rfl, hbytes⟩, ⟨rfl, rfl⟩, rfl⟩
        exact ⟨⟨rfl, rfl⟩, by omega⟩
      · rintro ⟨⟨rfl, rfl⟩, hbytes⟩
        exact ⟨before, after, ⟨rfl, by omega⟩, ⟨rfl, rfl⟩, rfl⟩
  | case4 n c cs hle =>
    cases before with
    | nil => simp [utf8Bytes]
    | cons b before =>
      -- The place is inside the first character, where no text ends.
      have hbytes := hlength b before
      simp only [reduceCtorEq, false_iff, not_and, List.cons_append, List.cons.injEq]
      rintro ⟨rfl, -⟩
      omega

/-- A text can be parted at the places of its string. -/
theorem isSome_splitAtByte?_iff :
    (splitAtByte? n cs).isSome = true ↔ (⟨n⟩ : String.Pos.Raw).IsValid (String.ofList cs) := by
  rw [Option.isSome_iff_exists, String.Pos.Raw.isValid_ofList]
  constructor
  · rintro ⟨⟨before, after⟩, h⟩
    obtain ⟨rfl, hlength⟩ := splitAtByte?_eq_some_iff.mp h
    exact ⟨before.length, by rw [List.take_left, ← length_utf8Bytes, hlength]⟩
  · rintro ⟨i, hi⟩
    refine ⟨(cs.take i, cs.drop i), splitAtByte?_eq_some_iff.mpr ⟨(List.take_append_drop i cs).symm, ?_⟩⟩
    rw [length_utf8Bytes, ← hi]

end Roster.Text
