import Tablespace.Heading

/-!
# Schemas

A schema is a list of named, typed columns. Two schemas have the same
**layout** if their columns have the same types in the same order; rows can
be moved between them byte for byte. What a name names is looked up in the
heading of the columns: the last of the columns that it occurs at.
-/

namespace Tablespace

/-- **A schema**: the columns of a row, in order. -/
structure Schema where
  /-- The columns. -/
  columns : List Column
  deriving DecidableEq

namespace Schema

/-- The schema without columns. -/
def empty : Schema := ⟨[]⟩

/-- The number of bytes of a row of the columns. -/
def sizeOf : (columns : List Column) → Nat
  | [] => 0
  | c :: columns => c.type.size + sizeOf columns

/-- **The number of bytes of a row.** -/
def rowSize (s : Schema) : Nat :=
  sizeOf s.columns

/-- The column at a position. -/
def column? (s : Schema) (position : Nat) : Option Column :=
  s.columns[position]?

/-- **The heading of the columns.** -/
def heading (s : Schema) : Heading :=
  .new (s.columns.map (·.unplaced))

/-- **The position of the column that a name names.** -/
def position? (s : Schema) (name : String) : Option Nat :=
  s.heading.place? name

/-- The types of the columns, which are all that the bytes of a row depend
on. -/
def layout (s : Schema) : List DataType :=
  s.columns.map (·.type)

/-- **Whether two schemas have the same layout.** -/
def sameLayout (s t : Schema) : Bool :=
  s.layout = t.layout

/-- **The schema under an alias.** -/
def aliased (s : Schema) (label : String) : Schema :=
  ⟨s.columns.map (·.aliased label)⟩

/-- **The columns of one schema, then those of another.** -/
def append (s t : Schema) : Schema :=
  ⟨s.columns ++ t.columns⟩

/-- Schemas of the same layout have the same number of columns. -/
theorem length_eq_of_sameLayout {s t : Schema} (h : s.sameLayout t = true) :
    s.columns.length = t.columns.length := by
  have := congrArg List.length (of_decide_eq_true h)
  simpa [layout] using this

end Schema

/-- **The schema of a heading**: its columns, without their places. -/
def Heading.schema (h : Heading) : Schema :=
  ⟨h.columns.map (·.toColumn)⟩

end Tablespace
