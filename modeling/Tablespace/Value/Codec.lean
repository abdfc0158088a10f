import Tablespace.Fault
import Tablespace.Word

/-!
# Stored values

A value is stored in exactly the bytes that its column's type takes:

* a truth value as one byte, zero or one;
* an integer as its two's complement word, the least significant byte first,
  a 32-bit integer in a 64-bit column at the greater width;
* a text as its length in four bytes, its own bytes, and zeros up to the
  room of the column.

Reading is more lenient than writing. Any byte but zero is true, a length
beyond the room counts as the room, and bytes that are no text are replaced
(`Text.ofBytes`), so that every stretch of bytes that is long enough reads
as some value.
-/

namespace Tablespace

namespace Value

/-- The word of a 32-bit integer. -/
def wordOfInt (n : Int32) : Nat := n.toUInt32.toNat

/-- The word of a 64-bit integer. -/
def wordOfBig (n : Int64) : Nat := n.toUInt64.toNat

/-- **The bytes that store a value** in a column of a type. -/
def encode : Value → DataType → Except Fault (List UInt8)
  | bool b, .boolean => .ok [if b then 1 else 0]
  | int n, .integer => .ok (Word.bytes 4 (wordOfInt n))
  | int n, .bigint => .ok (Word.bytes 8 (wordOfBig n.toInt64))
  | big n, .bigint => .ok (Word.bytes 8 (wordOfBig n))
  | str s, .char room =>
    let text := Text.bytes s
    if text.length ≤ room.toNat then
      .ok (Word.bytes 4 text.length ++ text ++ List.replicate (room.toNat - text.length) 0)
    else .error (.valueTooLong text.length room.toNat)
  | v, type => .error (.mismatch (.cannotStore v type))

/-- **The value that bytes store**, read from the first of them. -/
def ofBytes : DataType → List UInt8 → Value
  | .boolean, bs => bool (bs.headD 0 != 0)
  | .integer, bs => int (UInt32.ofNat (Word.ofBytes (bs.take 4))).toInt32
  | .bigint, bs => big (UInt64.ofNat (Word.ofBytes (bs.take 8))).toInt64
  | .char room, bs =>
    let length := min (Word.ofBytes (bs.take 4)) room.toNat
    str (Text.ofBytes ((bs.drop 4).take length))

/-- **Reads a value from the front of bytes**, and gives the bytes behind
it. -/
def decode (type : DataType) (bs : List UInt8) : Except Fault (Value × List UInt8) :=
  if bs.length < type.size then .error (.mismatch (.tooFewBytes type bs.length))
  else .ok (ofBytes type bs, bs.drop type.size)

end Value

end Tablespace
