import Tablespace.Assoc
import Tablespace.DataType

/-!
# Headings

A heading is what is kept of the columns of a row: the columns, each with the
place at which it stands, an index of their names, and the number of bytes that
a row takes. A heading is made from columns one by one. Where they stood before
does not count: a column is given the place that it now has. A name may occur
more than once, and the index has the last of its places.
-/

namespace Tablespace

/-- **A column**: a name and a type. -/
structure Column where
  /-- What the column is called. -/
  name : String
  /-- What the column holds. -/
  type : DataType
  deriving DecidableEq

/-- The column under an alias: it is called by the alias, a point and its
name. -/
def Column.aliased (c : Column) (label : String) : Column :=
  { c with name := label ++ "." ++ c.name }

/-- **A column in its place.** -/
structure PlacedColumn extends Column where
  /-- Where the column stands, from zero. -/
  place : Nat
  deriving DecidableEq

/-- A column that has no place yet. -/
def Column.unplaced (c : Column) : PlacedColumn :=
  { c with place := 0 }

/-- **A heading.** -/
structure Heading where
  /-- The columns, in order. -/
  columns : List PlacedColumn
  /-- The place of the column that a name names. -/
  places : Assoc String Nat
  /-- The number of bytes of a row. -/
  rowSize : Nat
  deriving DecidableEq

namespace Heading

/-- The heading without columns. -/
def empty : Heading := ⟨[], .empty, 0⟩

/-- The heading with one more column behind the others. -/
def add (h : Heading) (c : PlacedColumn) : Heading where
  columns := h.columns ++ [{ c with place := h.columns.length }]
  places := h.places.insert c.name h.columns.length
  rowSize := h.rowSize + c.type.size

/-- **The heading of columns**, wherever they stood before. -/
def new (columns : List PlacedColumn) : Heading :=
  columns.foldl add empty

/-- The number of columns. -/
def width (h : Heading) : Nat :=
  h.columns.length

/-- The column at a place. -/
def column? (h : Heading) (place : Nat) : Option PlacedColumn :=
  h.columns[place]?

/-- **The place of the column that a name names.** -/
def place? (h : Heading) (name : String) : Option Nat :=
  h.places.get? name

/-- **Whether two headings have the same layout**: as many columns, of the same
types. -/
def sameLayout (h k : Heading) : Bool :=
  h.columns.length = k.columns.length &&
    (h.columns.zip k.columns).all fun (c, d) => c.type = d.type

/-- Whether two headings have the same columns in the same places. -/
def same (h k : Heading) : Bool :=
  h.columns = k.columns

/-- **The heading under an alias.** -/
def aliased (h : Heading) (label : String) : Heading :=
  new (h.columns.map fun c => (c.toColumn.aliased label).unplaced)

/-- **The columns of one heading, then those of another.** -/
def append (h k : Heading) : Heading :=
  new ((h.columns ++ k.columns).map fun c => c.toColumn.unplaced)

/-- **The columns at the given places**, in the order given, if there are
columns at all of them. -/
def project? (h : Heading) (places : List Nat) : Option Heading :=
  (places.mapM h.column?).map new

end Heading

end Tablespace
