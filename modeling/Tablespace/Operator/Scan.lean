import Tablespace.Operator.Basic

/-!
# Scanning a table

Two operators give the rows of a table. One scans a given file
(`Operator.ofFile`). The other scans whatever file the catalog has for the
table when the operator is started, and gives the rows under the schema that
the table had when the operator was built, with an alias before the names
(`Operator.ofTable`). Both keep the places of the rows, so that the rows can
be deleted.
-/

namespace Tablespace

namespace Operator

/-- **The operator that scans a file**, in at most so many steps at a time if they
are limited. Its state is the position, or none when it is closed. -/
def ofFile (scan : HeapScan) (steps : Option Nat := none) : Operator (Option ScanPosition) where
  start := Work.setOwn fun _ => some HeapScan.start
  hasNext := do
    match ← Work.own with
    | none => return false
    | some position =>
      Turn.within (fun s => (position, s.2)) (fun r _ => (some r.1, r.2)) (scan.hasNext steps)
  next := do
    match ← Work.own with
    | none => Turn.refuse .noSuchElement
    | some position =>
      Turn.within (fun s => (position, s.2)) (fun r _ => (some r.1, r.2)) (scan.next steps)
  rewind := Work.setOwn fun _ => some HeapScan.start
  close := fun _ => none
  bound := fun position e =>
    match position with
    | none => 0
    | some position => scan.bound position e

end Operator

/-- **What a table scan gives**: whose locks it takes, the table, the alias
of the table, and the schema of the rows. -/
structure TableScan where
  /-- The transaction that takes the locks. -/
  txn : TxnId
  /-- The table. -/
  table : TableId
  /-- The alias, which stands before the names of the columns. -/
  label : String
  /-- The schema of the rows. -/
  schema : Schema
  deriving DecidableEq

namespace TableScan

/-- **The scan of a table of the catalog** under an alias. -/
def ofCatalog (c : Catalog) (txn : TxnId) (table : TableId) (label : String) :
    Except Fault TableScan := do
  let schema ← c.schema table
  return ⟨txn, table, label, schema.aliased label⟩

/-- The scan of the file that the catalog has for the table. -/
def heapScan (scan : TableScan) (e : Engine) : Except Fault HeapScan := do
  let file ← e.catalog.file scan.table
  return ⟨scan.txn, file⟩

/-- Goes before the first row of the file that the catalog has now. -/
def begin (scan : TableScan) : Work (Option (HeapScan × ScanPosition)) Unit := do
  let heap ← Turn.ofExcept (scan.heapScan (← get).2)
  Work.setOwn fun _ => some (heap, HeapScan.start)

end TableScan

namespace Operator

/-- **The operator that scans a table.** Its state is the file that is being
scanned with the position in it, or none when it is closed. -/
def ofTable (scan : TableScan) : Operator (Option (HeapScan × ScanPosition)) where
  start := scan.begin
  hasNext := do
    match ← Work.own with
    | none => return false
    | some (heap, position) =>
      Turn.within (fun s => (position, s.2)) (fun r _ => (some (heap, r.1), r.2)) heap.hasNext
  next := do
    match ← Work.own with
    | none => Turn.refuse .noSuchElement
    | some (heap, position) =>
      let row ←
        Turn.within (fun s => (position, s.2)) (fun r _ => (some (heap, r.1), r.2)) heap.next
      Turn.ofExcept (row.relabel scan.schema)
  rewind := do
    Work.setOwn fun _ => none
    scan.begin
  close := fun _ => none
  bound := fun state e =>
    let catalogued := match scan.heapScan e with
      | .ok heap => heap.bound HeapScan.start e
      | .error _ => 0
    match state with
    | none => catalogued
    | some (heap, position) => heap.bound position e + catalogued

end Operator

end Tablespace
