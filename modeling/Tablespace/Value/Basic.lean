import Tablespace.DataType
import Tablespace.Text.Utf8

/-!
# Values

A value is a truth value, an integer of 32 or of 64 bits, or a text. The two
widths of integer are different values even where they are the same number:
they are told apart by equality, and so by grouping. They are *compared* as
numbers (`Value.compare?`), and a 32-bit integer may stand in a 64-bit
column, where it is stored at the greater width (`Value.widen`).
-/

namespace Tablespace

/-- **A value.** -/
inductive Value where
  | bool (b : Bool)
  | int (n : Int32)
  | big (n : Int64)
  | str (s : String)
  deriving DecidableEq

namespace Value

/-- **Whether the value may stand in a column of the type.** Text fits if
its bytes do. -/
def fits : Value → DataType → Bool
  | bool _, .boolean => true
  | int _, .integer => true
  | int _, .bigint => true
  | big _, .bigint => true
  | str s, .char room => (Text.bytes s).length ≤ room.toNat
  | _, _ => false

/-- The written form of a value; text stands between single quotes, as it
is. -/
def render : Value → String
  | bool b => if b then "true" else "false"
  | int n => n.toInt.repr
  | big n => n.toInt.repr
  | str s => "'" ++ s ++ "'"

/-- The number that an integer of either width is. -/
def asInt? : Value → Option Int64
  | int n => some n.toInt64
  | big n => some n
  | bool _ | str _ => none

/-- The text that a value is. -/
def asText? : Value → Option String
  | str s => some s
  | bool _ | int _ | big _ => none

/-- **The value as a column of the type keeps it**: a 32-bit integer in a
64-bit column is kept at the greater width, all else as it is. -/
def widen : Value → DataType → Value
  | int n, .bigint => big n.toInt64
  | v, _ => v

/-! ## Order -/

/-- **The order of values.** Truth values, integers of either width, and
texts are ordered among themselves – `false` first, by number, and by bytes
– and not across. -/
def compare? : Value → Value → Option Ordering
  | bool a, bool b => some (compare a.toNat b.toNat)
  | str a, str b =>
    some (compare ((Text.bytes a).map UInt8.toNat) ((Text.bytes b).map UInt8.toNat))
  | int a, int b => some (compare a.toInt b.toInt)
  | int a, big b => some (compare a.toInt b.toInt)
  | big a, int b => some (compare a.toInt b.toInt)
  | big a, big b => some (compare a.toInt b.toInt)
  | _, _ => none

end Value

end Tablespace
