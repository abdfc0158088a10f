import Tablespace.Config
import Tablespace.Disk
import Tablespace.Page.Basic
import Tablespace.Turn
import Tablespace.Volume

/-!
# Heap files

A heap file keeps the rows of one table: it is a file of heap pages
(`PageFile`), all for the table's schema, and page `n` of the table is page
`n` of the file. The file is known by where it lies; what it holds is in the
volume. Two heap files may lie at the same place, and then what is written
through one is read through the other.

The file of a table is made when it is opened, before the configuration is
looked at, so that it is there even if the table could not be opened.
-/

namespace Tablespace

/-- **A heap file.** -/
structure HeapFile where
  /-- The table whose rows it keeps. -/
  table : TableId
  /-- The columns of the rows. -/
  schema : Schema
  /-- Where the file lies. -/
  path : Path
  /-- The number of bytes of a page. -/
  pageSize : Nat
  /-- A row fits into a page. -/
  slots_pos : 0 < Layout.slotCount pageSize schema.rowSize
  /-- Every slot of a page has a number of 16 bits. -/
  slots_le : Layout.slotCount pageSize schema.rowSize ≤ Layout.maxSlots
  deriving DecidableEq

namespace HeapFile

/-- **The heap file of a table at a place**, if the configuration can be run
with and its pages suit the rows. -/
def of (c : Config) (table : TableId) (schema : Schema) (path : Path) :
    Except Fault HeapFile := do
  c.validate
  if few : Layout.slotCount c.pageSize schema.rowSize = 0 then
    .error (.config (.pageTooSmall c.pageSize schema.rowSize))
  else if many : Layout.slotCount c.pageSize schema.rowSize ≤ Layout.maxSlots then
    return ⟨table, schema, path, c.pageSize, Nat.pos_of_ne_zero few, many⟩
  else
    .error (.config (.tooManySlots c.pageSize
      (Layout.slotCount c.pageSize schema.rowSize) schema.rowSize Layout.maxSlots))

/-- **Opens the heap file of a table** at a path. -/
def openAs (v : Volume) (c : Config) (table : TableId) (schema : Schema) (path : String) :
    Except Fault HeapFile × Volume :=
  match v.openFile path with
  | .error flaw => (.error (.file flaw), v)
  | .ok (place, v') => (of c table schema place, v')

/-- The number that a file goes by if it is given none: its position in the
volume. The same file has the same number whichever path leads to it. -/
def tableOf (v : Volume) (path : Path) : TableId :=
  ⟨UInt32.ofNat (v.files.findIdx (·.1 = path))⟩

/-- **Opens a heap file by its path alone**; the table's number is that of
the file. -/
def openByPath (v : Volume) (c : Config) (schema : Schema) (path : String) :
    Except Fault HeapFile × Volume :=
  match v.openFile path with
  | .error flaw => (.error (.file flaw), v)
  | .ok (place, v') => (of c (tableOf v' place) schema place, v')

variable (f : HeapFile)

/-- **The number of pages**, the last of which may be cut short. -/
def pageCount (v : Volume) : UInt32 :=
  PageFile.pageCount f.pageSize (v.content f.path).size

/-- Refuses a page of another table. -/
def checkTable (page : PageId) : Except Fault Unit :=
  if page.table = f.table then .ok () else .error (.tableMismatch f.table page.table)

/-- **Reads a page** from the file. It must be there in full. -/
def readPage (v : Volume) (page : PageId) : Except Fault Page := do
  f.checkTable page
  match PageFile.read? (v.content f.path) f.pageSize page.number with
  | none => .error (.corruptPage page .shortRead)
  | some image => Page.ofImage page f.schema image

/-- **Writes a page** to the file. It must be as long as the file's
pages. -/
def writePage (v : Volume) (p : Page) : Except Halt Volume :=
  match f.checkTable p.id with
  | .error cause => .error (.fault cause)
  | .ok () =>
    if p.image.size = f.pageSize then
      .ok (v.put f.path
        (PageFile.write (v.content f.path) f.pageSize p.id.number p.image.toList))
    else .error .breach

/-- **Writes an empty page behind the last one**, and gives its number. -/
def appendPage (v : Volume) : UInt32 × Volume :=
  let page := f.pageCount v
  (page, v.put f.path
    (PageFile.write (v.content f.path) f.pageSize page (List.replicate f.pageSize 0)))

end HeapFile

end Tablespace
