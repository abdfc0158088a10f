/-!
# Words as bytes

A number is stored in a fixed number of bytes, the least significant byte
first. Numbers too large for their width lose their high bits.
-/

namespace Tablespace.Word

/-- **The bytes of a number**, `width` of them, the least significant
first. -/
def bytes : (width n : Nat) → List UInt8
  | 0, _ => []
  | width + 1, n => UInt8.ofNat n :: bytes width (n / 256)

/-- **The number of bytes**, the least significant first. -/
def ofBytes : List UInt8 → Nat
  | [] => 0
  | b :: bs => b.toNat + 256 * ofBytes bs

/-- A number takes exactly as many bytes as it is given. -/
@[simp]
theorem length_bytes (width n : Nat) : (bytes width n).length = width := by
  induction width generalizing n with
  | zero => rfl
  | succ width ih => simp [bytes, ih]

/-- How many numbers have a place in so many bytes. -/
def count : (width : Nat) → Nat
  | 0 => 1
  | width + 1 => 256 * count width

/-- **Reading back gives the number up to its width.** -/
theorem ofBytes_bytes (width n : Nat) : ofBytes (bytes width n) = n % count width := by
  induction width generalizing n with
  | zero => simp [bytes, ofBytes, count, Nat.mod_one]
  | succ width ih =>
    rw [bytes, ofBytes, ih, count, Nat.mod_mul]
    rfl

/-- What is read has a place in the bytes it is read from. -/
theorem ofBytes_lt_count (bs : List UInt8) : ofBytes bs < count bs.length := by
  induction bs with
  | nil => exact Nat.one_pos
  | cons b bs ih =>
    rw [ofBytes, List.length_cons, count]
    have digit := b.toNat_lt
    omega

/-- **Bytes are written as they were read.** -/
theorem bytes_ofBytes (bs : List UInt8) : bytes bs.length (ofBytes bs) = bs := by
  induction bs with
  | nil => rfl
  | cons b bs ih =>
    have digit := b.toNat_lt
    rw [List.length_cons, ofBytes, bytes,
      show (b.toNat + 256 * ofBytes bs) / 256 = ofBytes bs by omega, ih]
    congr 1
    rw [← UInt8.toNat_inj, UInt8.toNat_ofNat']
    omega

end Tablespace.Word
