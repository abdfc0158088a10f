/-!
# Text as bytes

Text is stored as UTF-8. Writing is exact; reading never fails. Where the
bytes are not UTF-8, the longest piece that could still have begun a
character is replaced by one replacement character, and reading goes on
behind it: a byte that can begin nothing is such a piece of its own.

A character of more than one byte starts with a **lead byte**, which fixes
how many bytes follow and in which range the first of them lies. That range
is what keeps out overlong forms, surrogates and numbers past the last
character; every later byte lies between `80` and `BF`.
-/

namespace Tablespace.Text

/-- **The bytes of a text.** -/
def bytes (s : String) : List UInt8 :=
  s.toList.flatMap String.utf8EncodeChar

/-- What a lead byte announces. -/
structure Lead where
  /-- The bits of the character that the lead byte carries. -/
  high : Nat
  /-- How many bytes follow. -/
  more : Nat
  /-- The least byte that may follow directly. -/
  least : UInt8
  /-- The greatest byte that may follow directly. -/
  greatest : UInt8

/-- The lead bytes, with the ranges that admit shortest forms of characters
only. `80` to `C1` and `F5` to `FF` lead nothing. -/
def Lead.ofByte? (b : UInt8) : Option Lead :=
  if 0xC2 ≤ b ∧ b ≤ 0xDF then some ⟨b.toNat - 0xC0, 1, 0x80, 0xBF⟩
  else if b = 0xE0 then some ⟨0, 2, 0xA0, 0xBF⟩
  else if b = 0xED then some ⟨0xD, 2, 0x80, 0x9F⟩
  else if 0xE1 ≤ b ∧ b ≤ 0xEF then some ⟨b.toNat - 0xE0, 2, 0x80, 0xBF⟩
  else if b = 0xF0 then some ⟨0, 3, 0x90, 0xBF⟩
  else if 0xF1 ≤ b ∧ b ≤ 0xF3 then some ⟨b.toNat - 0xF0, 3, 0x80, 0xBF⟩
  else if b = 0xF4 then some ⟨4, 3, 0x80, 0x8F⟩
  else none

/-- **The rest of a character**: reads `more` bytes, the first of them
between `least` and `greatest`, on top of the bits gathered so far. The
character is `none` if one of the bytes is missing or out of range; the
bytes read until then are gone, the offending one is not. -/
def readTail : (more high : Nat) → (least greatest : UInt8) → List UInt8 →
    Option Nat × List UInt8
  | 0, high, _, _, bs => (some high, bs)
  | _ + 1, _, _, _, [] => (none, [])
  | more + 1, high, least, greatest, b :: bs =>
    if least ≤ b ∧ b ≤ greatest then
      readTail more (high * 64 + (b.toNat - 0x80)) 0x80 0xBF bs
    else (none, b :: bs)

/-- Reading the rest of a character never gains bytes. -/
theorem length_readTail_le (more high : Nat) (least greatest : UInt8) (bs : List UInt8) :
    (readTail more high least greatest bs).2.length ≤ bs.length := by
  induction more generalizing high least greatest bs with
  | zero => simp [readTail]
  | succ more ih =>
    cases bs with
    | nil => simp [readTail]
    | cons b bs =>
      simp only [readTail]
      split
      · exact Nat.le_succ_of_le (ih ..)
      · simp

/-- **The replacement character**, which stands for bytes that are no
text. -/
def replacement : Char := Char.ofNat 0xFFFD

/-- **The characters of bytes**, with each piece that is no text
replaced. -/
def readChars : List UInt8 → List Char
  | [] => []
  | b :: bs =>
    if b < 0x80 then Char.ofNat b.toNat :: readChars bs
    else match Lead.ofByte? b with
      | none => replacement :: readChars bs
      | some lead =>
        let tail := readTail lead.more lead.high lead.least lead.greatest bs
        (tail.1.map Char.ofNat).getD replacement :: readChars tail.2
termination_by bs => bs.length
decreasing_by
  all_goals simp only [List.length_cons]
  · omega
  · omega
  · exact Nat.lt_succ_of_le (length_readTail_le ..)

/-- **The text of bytes.** -/
def ofBytes (bs : List UInt8) : String :=
  String.ofList (readChars bs)

/-- **Whether `part` stands somewhere in a text**, as one piece. The empty
text stands in every text. -/
def occursIn (part : List Char) : List Char → Bool
  | [] => part.isEmpty
  | c :: cs => part.isPrefixOf (c :: cs) || occursIn part cs

end Tablespace.Text
