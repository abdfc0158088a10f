import Tablespace.Operator.Basic

/-!
# Rows at hand

The operator over a fixed list of rows. Its state is the number of rows
given, or none when it is closed. To rewind it is to start it, even if it
was closed.
-/

namespace Tablespace

/-- **The operator that gives the rows of a list.** -/
def Operator.ofRows (rows : List Tuple) : Operator (Option Nat) where
  start := Work.setOwn fun _ => some 0
  hasNext := do
    match ← Work.own with
    | none => return false
    | some given => return given < rows.length
  next := do
    let given? ← Work.own
    match given?, given?.bind (rows[·]?) with
    | some given, some row =>
      Work.setOwn fun _ => some (given + 1)
      return row
    | _, _ => Turn.refuse .noSuchElement
  rewind := Work.setOwn fun _ => some 0
  close := fun _ => none
  bound := fun _ _ => rows.length

end Tablespace
