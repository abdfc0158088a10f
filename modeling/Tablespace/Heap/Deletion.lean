import Tablespace.Pool.Basic

/-!
# Deletion

A row is deleted by its place: the page is locked exclusive, and the slot is
emptied. A row without a place, or with one in another table, is refused
before anything is locked.
-/

namespace Tablespace

/-- The place of a row that has one. -/
def Tuple.place (t : Tuple) : Except Fault RecordId :=
  match t.record with
  | some record => .ok record
  | none => .error .missingRecordId

namespace Engine

/-- **Empties the slot of a row** in its page. The page is not marked as
changed. -/
def deleteAt (t : TxnId) (row : Tuple) (record : RecordId) : Turn Engine Page := do
  let p ← fetch t record.page .exclusive
  let r ← change p fun p =>
    match p.delete row with
    | .ok p' => (.ok (), p')
    | .error cause => (.error cause, p)
  return r.2

end Engine

end Tablespace
