import Tablespace.Assoc
import Tablespace.Heap.File

/-!
# The catalog

The catalog says which heap file keeps the rows of which table, and what the
table is called. It finds a table by its number, in the list of its entries,
and by its name, in an index of the names. A table has one name and one file,
and no two tables share a name: to register a table removes whatever had its
number or its name before, from the entries and from the index.
-/

namespace Tablespace

/-- **A table of the catalog.** -/
structure CatalogEntry where
  /-- What the table is called. -/
  name : String
  /-- The file of its rows, which also says which table it is. -/
  file : HeapFile
  deriving DecidableEq

/-- The table of a catalog entry. -/
def CatalogEntry.table (e : CatalogEntry) : TableId :=
  e.file.table

/-- **The tables that are registered.** -/
structure Catalog where
  /-- The tables by their numbers, the one registered last first. -/
  entries : List CatalogEntry
  /-- The tables by their names. -/
  names : Assoc String TableId
  deriving DecidableEq

namespace Catalog

/-- The catalog without tables. -/
def empty : Catalog := ⟨[], .empty⟩

/-- The catalog without the table that has a name. -/
def dropNamed (c : Catalog) (name : String) : Catalog :=
  match c.names.get? name with
  | some table => ⟨c.entries.filter (·.table ≠ table), c.names.erase name⟩
  | none => c

/-- The catalog without a table. -/
def dropTable (c : Catalog) (table : TableId) : Catalog :=
  match c.entries.find? (·.table = table) with
  | some e => ⟨c.entries.filter (·.table ≠ table), c.names.erase e.name⟩
  | none => c

/-- **Registers a file under a name**, in place of the table that had the name
and of the one that had its number. -/
def add (c : Catalog) (file : HeapFile) (name : String) : Catalog :=
  let others := (c.dropNamed name).dropTable file.table
  ⟨⟨name, file⟩ :: others.entries, others.names.insert name file.table⟩

/-- No entry is new but the one that is added. -/
theorem eq_or_mem_of_mem_add {c : Catalog} {file : HeapFile} {name : String} {e : CatalogEntry}
    (h : e ∈ (c.add file name).entries) : e = ⟨name, file⟩ ∨ e ∈ c.entries := by
  have named : (c.dropNamed name).entries ⊆ c.entries := by
    unfold dropNamed
    split
    · exact List.filter_sublist.subset
    · exact List.Subset.refl _
  have numbered (c : Catalog) : (c.dropTable file.table).entries ⊆ c.entries := by
    unfold dropTable
    split
    · exact List.filter_sublist.subset
    · exact List.Subset.refl _
  exact (List.mem_cons.1 h).imp_right fun there => named (numbered _ there)

/-- The entry of a table. -/
def entry (c : Catalog) (table : TableId) : Except Fault CatalogEntry :=
  match c.entries.find? (·.table = table) with
  | some e => .ok e
  | none => .error (.tableNotFound table)

/-- **The file of a table.** -/
def file (c : Catalog) (table : TableId) : Except Fault HeapFile :=
  (c.entry table).map (·.file)

/-- **The columns of a table.** -/
def schema (c : Catalog) (table : TableId) : Except Fault Schema :=
  (c.file table).map (·.schema)

/-- **The name of a table.** -/
def tableName (c : Catalog) (table : TableId) : Except Fault String :=
  (c.entry table).map (·.name)

/-- **The table of a name.** -/
def tableNamed (c : Catalog) (name : String) : Except Fault TableId :=
  match c.names.get? name with
  | some table => .ok table
  | none => .error (.nameNotFound name)

/-- **The tables**, in ascending order. -/
def tables (c : Catalog) : List TableId :=
  (c.entries.map (·.table)).mergeSort fun a b => a.number.toNat ≤ b.number.toNat

end Catalog

end Tablespace
