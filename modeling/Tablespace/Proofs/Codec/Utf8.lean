import Tablespace.Text.Utf8

/-!
# Text is read back from its bytes

Reading bytes as text replaces what is no text. What was written from a text
is text throughout, so that nothing is replaced and the same text comes back
(`Text.ofBytes_bytes`). The argument goes character by character: the lead
byte of a character announces its length and the range of the byte that
follows, and the bytes that follow it are in range.
-/

namespace Tablespace.Text

theorem toNat_ofNat_of_lt {n : Nat} (h : n < 256) : (UInt8.ofNat n).toNat = n := by
  simp [Nat.mod_eq_of_lt h]

/-- A byte in range is taken, and carries six bits. -/
theorem readTail_cons (more high n : Nat) {least greatest : UInt8} (bs : List UInt8)
    (h : n < 256) (lower : least.toNat ≤ n) (upper : n ≤ greatest.toNat) :
    readTail (more + 1) high least greatest (UInt8.ofNat n :: bs)
      = readTail more (high * 64 + (n - 0x80)) 0x80 0xBF bs := by
  have byte := toNat_ofNat_of_lt h
  rw [readTail, if_pos, byte]
  rw [UInt8.le_iff_toNat_le, UInt8.le_iff_toNat_le, byte]
  exact ⟨lower, upper⟩

/-! ## Lead bytes -/

theorem ofByte?_two {n : Nat} (lower : 0xC2 ≤ n) (upper : n ≤ 0xDF) :
    Lead.ofByte? (UInt8.ofNat n) = some ⟨n - 0xC0, 1, 0x80, 0xBF⟩ := by
  have byte := toNat_ofNat_of_lt (show n < 256 by omega)
  rw [Lead.ofByte?, if_pos, byte]
  rw [UInt8.le_iff_toNat_le, UInt8.le_iff_toNat_le, byte]
  exact ⟨lower, upper⟩

theorem ofByte?_three {n : Nat} (lower : 0xE0 ≤ n) (upper : n ≤ 0xEF) :
    Lead.ofByte? (UInt8.ofNat n)
      = some ⟨n - 0xE0, 2, if n = 0xE0 then 0xA0 else 0x80, if n = 0xED then 0x9F else 0xBF⟩ := by
  have byte := toNat_ofNat_of_lt (show n < 256 by omega)
  simp only [Lead.ofByte?, UInt8.le_iff_toNat_le, ← UInt8.toNat_inj, byte, UInt8.reduceToNat]
  grind

theorem ofByte?_four {n : Nat} (lower : 0xF0 ≤ n) (upper : n ≤ 0xF4) :
    Lead.ofByte? (UInt8.ofNat n)
      = some ⟨n - 0xF0, 3, if n = 0xF0 then 0x90 else 0x80, if n = 0xF4 then 0x8F else 0xBF⟩ := by
  have byte := toNat_ofNat_of_lt (show n < 256 by omega)
  simp only [Lead.ofByte?, UInt8.le_iff_toNat_le, ← UInt8.toNat_inj, byte, UInt8.reduceToNat]
  grind

/-! ## Characters -/

/-- A character of one byte is read as it is. -/
theorem readChars_ascii {n : Nat} (h : n < 0x80) (bs : List UInt8) :
    readChars (UInt8.ofNat n :: bs) = Char.ofNat n :: readChars bs := by
  have byte := toNat_ofNat_of_lt (show n < 256 by omega)
  rw [readChars, if_pos, byte]
  rw [UInt8.lt_iff_toNat_lt, byte]
  exact h

/-- A character of several bytes is what its lead byte announces. -/
theorem readChars_lead {n : Nat} {lead : Lead} (range : 0x80 ≤ n ∧ n < 256)
    (h : Lead.ofByte? (UInt8.ofNat n) = some lead) (bs : List UInt8) :
    readChars (UInt8.ofNat n :: bs)
      = ((readTail lead.more lead.high lead.least lead.greatest bs).1.map Char.ofNat).getD
          replacement
        :: readChars (readTail lead.more lead.high lead.least lead.greatest bs).2 := by
  have byte := toNat_ofNat_of_lt range.2
  rw [readChars, if_neg, h]
  rw [UInt8.lt_iff_toNat_lt, byte]
  exact Nat.not_lt.2 range.1

/-- **A character is read back from its bytes**, and nothing behind it is
touched. -/
theorem readChars_utf8EncodeChar (c : Char) (bs : List UInt8) :
    readChars (String.utf8EncodeChar c ++ bs) = c :: readChars bs := by
  have char : Char.ofNat c.val.toNat = c := Char.ofNat_toNat c
  have valid : c.val.toNat < 0xD800 ∨ 0xDFFF < c.val.toNat ∧ c.val.toNat < 0x110000 := c.valid
  unfold String.utf8EncodeChar
  revert char valid
  generalize c.val.toNat = v
  intro char valid
  dsimp only
  split
  · rw [List.singleton_append, readChars_ascii (by omega), char]
  · split
    · -- the lead byte has five bits of the character
      rw [List.cons_append, List.cons_append, List.nil_append,
        readChars_lead ⟨by omega, by omega⟩ (ofByte?_two (by omega) (by omega)),
        readTail_cons _ _ _ _ (by omega) (by simp only [UInt8.reduceToNat]; omega)
          (by simp only [UInt8.reduceToNat]; omega), readTail,
        show (v / 64 % 32 + 0xC0 - 0xC0) * 64 + (v % 64 + 0x80 - 0x80) = v by omega]
      simp [char]
    · split
      · -- four bits; the byte behind the lead byte is bounded in two cases
        rw [List.cons_append, List.cons_append, List.cons_append, List.nil_append,
          readChars_lead ⟨by omega, by omega⟩ (ofByte?_three (by omega) (by omega)),
          readTail_cons _ _ _ _ (by omega)
            (by dsimp only; split <;> simp only [UInt8.reduceToNat] <;> omega)
            (by dsimp only; split <;> simp only [UInt8.reduceToNat] <;> omega),
          readTail_cons _ _ _ _ (by omega) (by simp only [UInt8.reduceToNat]; omega)
            (by simp only [UInt8.reduceToNat]; omega), readTail,
          show ((v / 4096 % 16 + 0xE0 - 0xE0) * 64 + (v / 64 % 64 + 0x80 - 0x80)) * 64
            + (v % 64 + 0x80 - 0x80) = v by omega]
        simp [char]
      · -- three bits; again bounded in two cases
        rw [List.cons_append, List.cons_append, List.cons_append, List.cons_append,
          List.nil_append,
          readChars_lead ⟨by omega, by omega⟩ (ofByte?_four (by omega) (by omega)),
          readTail_cons _ _ _ _ (by omega)
            (by dsimp only; split <;> simp only [UInt8.reduceToNat] <;> omega)
            (by dsimp only; split <;> simp only [UInt8.reduceToNat] <;> omega),
          readTail_cons _ _ _ _ (by omega) (by simp only [UInt8.reduceToNat]; omega)
            (by simp only [UInt8.reduceToNat]; omega),
          readTail_cons _ _ _ _ (by omega) (by simp only [UInt8.reduceToNat]; omega)
            (by simp only [UInt8.reduceToNat]; omega), readTail,
          show (((v / 262144 % 8 + 0xF0 - 0xF0) * 64 + (v / 4096 % 64 + 0x80 - 0x80)) * 64
            + (v / 64 % 64 + 0x80 - 0x80)) * 64 + (v % 64 + 0x80 - 0x80) = v by omega]
        simp [char]

/-- **Text is read back from its bytes.** -/
theorem ofBytes_bytes (s : String) : ofBytes (bytes s) = s := by
  have go (cs : List Char) : readChars (cs.flatMap String.utf8EncodeChar) = cs := by
    induction cs with
    | nil => simp [readChars]
    | cons c cs ih => rw [List.flatMap_cons, readChars_utf8EncodeChar, ih]
  rw [ofBytes, bytes, go, String.ofList_toList]

/-- **Bytes that are UTF-8.** -/
def IsUtf8 (bs : List UInt8) : Prop :=
  bs.toByteArray.IsValidUTF8

/-- Bytes are UTF-8 if they are those of some text. -/
theorem isUtf8_iff {bs : List UInt8} : IsUtf8 bs ↔ ∃ s, bytes s = bs := by
  constructor
  · rintro ⟨cs, same⟩
    refine ⟨String.ofList cs, ?_⟩
    rw [bytes, String.toList_ofList]
    exact (List.toByteArray_inj.1 same).symm
  · rintro ⟨s, rfl⟩
    exact ⟨s.toList, rfl⟩

/-- **Reading keeps the bytes just if they are UTF-8**: then nothing is
replaced. -/
theorem bytes_ofBytes_iff {bs : List UInt8} : bytes (ofBytes bs) = bs ↔ IsUtf8 bs := by
  rw [isUtf8_iff]
  constructor
  · intro same
    exact ⟨_, same⟩
  · rintro ⟨s, rfl⟩
    rw [ofBytes_bytes]

end Tablespace.Text
