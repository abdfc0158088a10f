import Tablespace.Value.Codec
import Tablespace.Schema

/-!
# Tuples

A tuple is a row of values under a schema, one value for each column, and
the place where it is stored, if it is stored. The number of values is part
of the type. That the values fit their columns is not: a tuple can also be
read from bytes (`Tuple.decode`), and reading does not look at what a value
holds.

## Stored form

A tuple is stored as its values, one behind the other. Writing goes column
by column and stops at the first value that cannot be written; what was
written until then stays where it was written (`Tuple.overwrite`).
-/

namespace Tablespace

/-- **A tuple.** -/
structure Tuple where
  /-- The columns. -/
  schema : Schema
  /-- The values, one for each column. -/
  values : List Value
  /-- Where the tuple is stored. -/
  record : Option RecordId
  /-- There is a value for each column and no other. -/
  length_values : values.length = schema.columns.length
  deriving DecidableEq

namespace Tuple

/-- The tuple without values. -/
def empty : Tuple := ⟨.empty, [], none, rfl⟩

/-- **The tuple of values under a schema**, which must be as many as the
columns and fit them; the first column whose value does not fit is at
fault. -/
def ofValues (schema : Schema) (values : List Value) : Except Fault Tuple :=
  if h : values.length = schema.columns.length then
    match (schema.columns.zip values).find? fun cv => !cv.2.fits cv.1.type with
    | some (c, v) => .error (.mismatch (.columnValue c.name c.type v))
    | none => .ok ⟨schema, values, none, h⟩
  else .error (.mismatch (.valueCount schema.columns.length values.length))

/-- The tuple at another place. -/
def located (t : Tuple) (record : Option RecordId) : Tuple :=
  { t with record := record }

/-- The value at a position. -/
def value? (t : Tuple) (position : Nat) : Option Value :=
  t.values[position]?

/-- The value of the column that a name names. -/
def valueOf? (t : Tuple) (name : String) : Option Value :=
  (t.schema.position? name).bind t.value?

/-- **Whether two tuples hold the same**: the same values under the same
schema, wherever they are stored. -/
def same (t u : Tuple) : Bool :=
  t.schema = u.schema && t.values = u.values

/-- The written form of a tuple. -/
def render (t : Tuple) : String :=
  "(" ++ ", ".intercalate (t.values.map Value.render) ++ ")"

/-- **The tuple under another schema** of the same layout. -/
def relabel (t : Tuple) (schema : Schema) : Except Fault Tuple :=
  if h : t.schema.sameLayout schema = true then
    .ok ⟨schema, t.values, t.record,
      t.length_values.trans (Schema.length_eq_of_sameLayout h)⟩
  else .error (.mismatch .layouts)

/-- **The values of one tuple, then those of another**, under a schema that
they must fit. -/
def append (t u : Tuple) (schema : Schema) : Except Fault Tuple :=
  ofValues schema (t.values ++ u.values)

/-! ## Stored form -/

/-- Writes values column by column: the bytes written, and the fault that
ended it. -/
def encodeColumns : List Column → List Value → List UInt8 × Option Fault
  | c :: cs, v :: vs =>
    match v.encode c.type with
    | .ok bs =>
      let rest := encodeColumns cs vs
      (bs ++ rest.1, rest.2)
    | .error cause => ([], some cause)
  | _, _ => ([], none)

/-- **The bytes that store a tuple.** -/
def encode (t : Tuple) : Except Fault (List UInt8) :=
  match encodeColumns t.schema.columns t.values with
  | (bs, none) => .ok bs
  | (_, some cause) => .error cause

/-- **Writes a tuple over the bytes of a slot**, which must be as many as
the tuple takes. Where a value cannot be written, the columns before it have
been written already. -/
def overwrite (t : Tuple) (slot : List UInt8) : List UInt8 × Option Fault :=
  if slot.length = t.schema.rowSize then
    let written := encodeColumns t.schema.columns t.values
    (written.1 ++ slot.drop written.1.length, written.2)
  else (slot, some (.mismatch (.slotLength slot.length t.schema.rowSize)))

/-- The first column that bytes of a length do not reach over. -/
def shortfall? : List Column → (length : Nat) → Option Mismatch
  | [], _ => none
  | c :: cs, length =>
    if length < c.type.size then some (.tooFewBytes c.type length)
    else shortfall? cs (length - c.type.size)

/-- The values that bytes store, column by column. -/
def readColumns : List Column → List UInt8 → List Value
  | [], _ => []
  | c :: cs, bs => Value.ofBytes c.type bs :: readColumns cs (bs.drop c.type.size)

/-- Reading gives one value for each column. -/
@[simp]
theorem length_readColumns (columns : List Column) (bs : List UInt8) :
    (readColumns columns bs).length = columns.length := by
  induction columns generalizing bs with
  | nil => rfl
  | cons c cs ih => simp [readColumns, ih]

/-- **The tuple that bytes store**; bytes behind it do not count. -/
def decode (schema : Schema) (bs : List UInt8) : Except Fault Tuple :=
  match shortfall? schema.columns bs.length with
  | some cause => .error (.mismatch cause)
  | none => .ok ⟨schema, readColumns schema.columns bs, none, length_readColumns ..⟩

end Tuple

end Tablespace
