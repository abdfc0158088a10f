/-!
# Column types

Every column has a fixed width in bytes, so that a row of a table always
takes the same room. A text column `CHAR(n)` holds text of at most `n`
bytes; it is stored as a four-byte length and `n` bytes of room.
-/

namespace Tablespace

/-- **The type of a column.** -/
inductive DataType where
  /-- A truth value, one byte. -/
  | boolean
  /-- A 32-bit signed integer. -/
  | integer
  /-- A 64-bit signed integer. -/
  | bigint
  /-- Text of at most `room` bytes. -/
  | char (room : UInt16)
  deriving DecidableEq

namespace DataType

/-- The number of bytes a value of the type takes. -/
def size : DataType → Nat
  | boolean => 1
  | integer => 4
  | bigint => 8
  | char room => 4 + room.toNat

/-- Whether the type is one of the two integer types. -/
def isNumeric : DataType → Bool
  | integer | bigint => true
  | boolean | char _ => false

/-- The written form of the type. -/
def render : DataType → String
  | boolean => "BOOLEAN"
  | integer => "INTEGER"
  | bigint => "BIGINT"
  | char room => "CHAR(" ++ room.toNat.repr ++ ")"

end DataType

end Tablespace
