import Mathlib.Tactic.Ring
import Tablespace.Proofs.Codec.Utf8

/-!
# What replacing costs

Bytes that are no text are read with each **flaw** replaced: a byte that can
begin nothing, or the piece up to where a character breaks off. The replacement
character has three bytes and a flaw may have one or two, so that the text that
comes out may take more bytes than went in. How many more is counted by the
flaws alone (`Text.length_bytes_ofBytes`): every other piece is a character, and
takes as many bytes as it was read from.

The last fact is where the ranges of the lead bytes come in. They leave no
number to be read that has a shorter form, that is a surrogate or that lies
past the last character (`Text.length_utf8EncodeChar_of_lead`).
-/

namespace Tablespace.Text

/-- **The flaws of bytes**: how long each piece is that is no text, in order. -/
def flaws : List UInt8 → List Nat
  | [] => []
  | b :: bs =>
    if b < 0x80 then flaws bs
    else match Lead.ofByte? b with
      | none => 1 :: flaws bs
      | some lead =>
        let tail := readTail lead.more lead.high lead.least lead.greatest bs
        match tail.1 with
        | some _ => flaws tail.2
        | none => (1 + (bs.length - tail.2.length)) :: flaws tail.2
termination_by bs => bs.length
decreasing_by
  all_goals simp only [List.length_cons]
  · omega
  · omega
  · exact Nat.lt_succ_of_le (length_readTail_le ..)
  · exact Nat.lt_succ_of_le (length_readTail_le ..)

/-! ## The rest of a character -/

/-- Bytes that all may be anything between `80` and `BF` are six bits each. -/
theorem readTail_later {more high n : Nat} {bs rest : List UInt8}
    (h : readTail more high 0x80 0xBF bs = (some n, rest)) :
    rest.length + more = bs.length ∧ high * 64 ^ more ≤ n ∧ n < (high + 1) * 64 ^ more := by
  induction more generalizing high bs with
  | zero =>
    cases h
    simp
  | succ more ih =>
    cases bs with
    | nil => cases h
    | cons b bs =>
      rw [readTail] at h
      split at h
      · rename_i range
        obtain ⟨length, lower, upper⟩ := ih h
        have digit : b.toNat - 0x80 < 64 := by
          have := UInt8.le_iff_toNat_le.1 range.2
          simp only [UInt8.reduceToNat] at this
          omega
        refine ⟨by rw [List.length_cons]; omega, ?_, ?_⟩
        · calc high * 64 ^ (more + 1) = high * 64 * 64 ^ more := by ring
            _ ≤ (high * 64 + (b.toNat - 0x80)) * 64 ^ more :=
              Nat.mul_le_mul_right _ (Nat.le_add_right ..)
            _ ≤ n := lower
        · calc n < (high * 64 + (b.toNat - 0x80) + 1) * 64 ^ more := upper
            _ ≤ (high * 64 + 64) * 64 ^ more := Nat.mul_le_mul_right _ (by omega)
            _ = (high + 1) * 64 ^ (more + 1) := by ring
      · cases h

/-- **A character that is read in full**: the bytes that were announced are
gone, and its number is bounded by the byte behind the lead byte. -/
theorem readTail_full {more high n : Nat} {least greatest : UInt8} {bs rest : List UInt8}
    (h : readTail (more + 1) high least greatest bs = (some n, rest)) :
    rest.length + (more + 1) = bs.length
      ∧ (high * 64 + (least.toNat - 0x80)) * 64 ^ more ≤ n
      ∧ n < (high * 64 + (greatest.toNat - 0x80) + 1) * 64 ^ more := by
  cases bs with
  | nil => cases h
  | cons b bs =>
    rw [readTail] at h
    split at h
    · rename_i range
      obtain ⟨length, lower, upper⟩ := readTail_later h
      have least_le := UInt8.le_iff_toNat_le.1 range.1
      have le_greatest := UInt8.le_iff_toNat_le.1 range.2
      refine ⟨by rw [List.length_cons]; omega, ?_, ?_⟩
      · exact (Nat.mul_le_mul_right _ (by omega)).trans lower
      · exact upper.trans_le (Nat.mul_le_mul_right _ (by omega))
    · cases h

/-! ## How long a character is -/

/-- The number of a character that is one. -/
theorem toNat_charOfNat {n : Nat} (valid : n.isValidChar) : (Char.ofNat n).toNat = n := by
  rw [Char.ofNat, dif_pos valid]
  rfl

theorem length_utf8EncodeChar_charOfNat {n : Nat} (valid : n.isValidChar) :
    (String.utf8EncodeChar (Char.ofNat n)).length
      = if n ≤ 0x7F then 1 else if n ≤ 0x7FF then 2 else if n ≤ 0xFFFF then 3 else 4 := by
  have number : (Char.ofNat n).val.toNat = n := toNat_charOfNat valid
  rw [String.length_utf8EncodeChar, Char.utf8Size]
  simp only [UInt32.le_iff_toNat_le, number]
  rfl

/-- **The ranges of the lead bytes admit shortest forms of characters only**: a
number that they leave is that of a character, which has as many bytes as the
lead byte announces. -/
theorem shortest_of_range {b : UInt8} {lead : Lead} (h : Lead.ofByte? b = some lead) :
    0 < lead.more ∧ ∀ n,
      (lead.high * 64 + (lead.least.toNat - 0x80)) * 64 ^ (lead.more - 1) ≤ n →
      n < (lead.high * 64 + (lead.greatest.toNat - 0x80) + 1) * 64 ^ (lead.more - 1) →
      n.isValidChar ∧
        (if n ≤ 0x7F then 1 else if n ≤ 0x7FF then 2 else if n ≤ 0xFFFF then 3 else 4)
          = lead.more + 1 := by
  unfold Lead.ofByte? at h
  simp only [UInt8.le_iff_toNat_le, ← UInt8.toNat_inj, UInt8.reduceToNat] at h
  -- one case for each range of lead bytes
  repeat' split at h
  all_goals
    simp only [Option.some.injEq, reduceCtorEq] at h
  all_goals
    subst h
    refine ⟨Nat.succ_pos _, fun n lower upper => ?_⟩
    dsimp only [Nat.isValidChar] at lower upper ⊢
    simp only [UInt8.reduceToNat] at lower upper
    grind

/-- **A character that is read in full** takes as many bytes as it was read
from. -/
theorem length_utf8EncodeChar_of_lead {b : UInt8} {lead : Lead} {bs : List UInt8} {n : Nat}
    (h : Lead.ofByte? b = some lead)
    (full : (readTail lead.more lead.high lead.least lead.greatest bs).1 = some n) :
    (String.utf8EncodeChar (Char.ofNat n)).length
        + (readTail lead.more lead.high lead.least lead.greatest bs).2.length
      = bs.length + 1 := by
  obtain ⟨more, shortest⟩ := shortest_of_range h
  obtain ⟨k, eq⟩ : ∃ k, lead.more = k + 1 := ⟨lead.more - 1, by omega⟩
  rw [eq] at full shortest ⊢
  have whole : readTail (k + 1) lead.high lead.least lead.greatest bs
      = (some n, (readTail (k + 1) lead.high lead.least lead.greatest bs).2) := Prod.ext full rfl
  obtain ⟨length, lower, upper⟩ := readTail_full whole
  obtain ⟨valid, size⟩ := shortest n lower upper
  rw [length_utf8EncodeChar_charOfNat valid, size]
  omega

/-! ## The text of bytes -/

/-- A replacement takes three bytes. -/
theorem length_utf8EncodeChar_replacement : (String.utf8EncodeChar replacement).length = 3 := by
  rfl

/-- **What replacing costs**: the text of bytes takes the bytes that have no
flaw as they are, and three bytes for each flaw. -/
theorem length_bytes_ofBytes (bs : List UInt8) :
    (bytes (ofBytes bs)).length + (flaws bs).sum = bs.length + 3 * (flaws bs).length := by
  rw [bytes, ofBytes, String.toList_ofList]
  fun_induction flaws bs with
  | case1 => simp [readChars]
  | case2 b bs ascii ih =>
    have one : (String.utf8EncodeChar (Char.ofNat b.toNat)).length = 1 := by
      have small : b.toNat < 0x80 := UInt8.lt_iff_toNat_lt.1 ascii
      rw [length_utf8EncodeChar_charOfNat (by simp only [Nat.isValidChar]; omega),
        if_pos (by omega)]
    rw [readChars, if_pos ascii, List.flatMap_cons, List.length_append, one, List.length_cons]
    omega
  | case3 b bs high none ih =>
    rw [readChars, if_neg high, none]
    dsimp only
    rw [List.flatMap_cons, List.length_append, length_utf8EncodeChar_replacement,
      List.length_cons, List.sum_cons, List.length_cons]
    omega
  | case4 b bs high lead found tail n full ih =>
    have size := length_utf8EncodeChar_of_lead found full
    rw [readChars, if_neg high, found]
    dsimp only [tail] at *
    rw [List.flatMap_cons, List.length_append, full, List.length_cons, Option.map_some,
      Option.getD_some]
    omega
  | case5 b bs high lead found tail broken ih =>
    have shorter := length_readTail_le lead.more lead.high lead.least lead.greatest bs
    rw [readChars, if_neg high, found]
    dsimp only [tail] at *
    rw [List.flatMap_cons, List.length_append, broken, List.length_cons, List.sum_cons,
      List.length_cons, Option.map_none, Option.getD_none, length_utf8EncodeChar_replacement]
    omega

end Tablespace.Text
