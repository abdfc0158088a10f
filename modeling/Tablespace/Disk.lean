import Tablespace.Fault
import Tablespace.FileImage

/-!
# Files of pages

A file is a sequence of pages of one size: page `n` is the bytes from
`n * size` on. Its last page may be cut short; such a page counts, but
cannot be read. Writing at or behind the end makes the file longer, and a
gap that this leaves reads as zeros.

The number of pages is a 32-bit word (`PageFile.pageCount`): at `2 ^ 32`
pages it wraps to zero. So are the numbers of pages that a disk has read and
written.

The operations are first given on the bytes of a file (`PageFile`) and then
on a disk (`Disk`), which also counts the pages that it has read and
written. A buffer that is not exactly as long as a page, and counting pages
of no length, are breaches of what the caller has to see to
(`DiskHalt.breach`).

A disk computes where a page begins in a word of 64 bits (`PageFile.offset`),
and its system seeks no position from `2 ^ 63` on (`Disk.seek`). With pages of
at most `2 ^ 31` bytes every page is where it should be
(`Disk.seek_of_small`). With larger ones the product can be out of reach, or
wrap.
-/

namespace Tablespace

/-- **Why a file operation did not succeed.** -/
inductive DiskHalt where
  /-- The file ends before the page does. -/
  | endOfFile
  /-- The page would begin at a position that no file has. -/
  | outOfRange
  /-- The buffer is not as long as a page, or pages of no length were to be
  counted. -/
  | breach
  deriving DecidableEq

namespace PageFile

/-- The page count of a file of `length` bytes: the number of pages, rounded
up, as a 32-bit word. -/
def pageCount (size length : Nat) : UInt32 :=
  UInt32.ofNat ((length + size - 1) / size)

/-- The bytes of a page that begins at a position, if the file reaches over all
of it. -/
def readAt? (file : FileImage) (start size : Nat) : Option Image :=
  if size = 0 then some #[]
  else if start + size ≤ file.size then some ((file.drop start).take size).toImage
  else none

/-- The file with a page written at a position. Behind the end, the gap reads as
zeros; an empty page changes nothing. -/
def writeAt (file : FileImage) (start : Nat) (bytes : List UInt8) : FileImage :=
  if bytes.isEmpty then file else file.write start bytes

/-- **The bytes of a page**, if the file reaches over all of it. -/
def read? (file : FileImage) (size : Nat) (page : UInt32) : Option Image :=
  readAt? file (page.toNat * size) size

/-- **The file with a page written.** -/
def write (file : FileImage) (size : Nat) (page : UInt32) (bytes : List UInt8) : FileImage :=
  writeAt file (page.toNat * size) bytes

/-- **Where a page begins**, as a word. -/
def offset (size : Nat) (page : UInt32) : UInt64 :=
  page.toUInt64 * UInt64.ofNat size

end PageFile

/-- **A disk**: a file, the size of its pages, and how many of them were
read and written since it was opened. -/
structure Disk where
  /-- The bytes of the file. -/
  file : FileImage
  /-- The size of a page. -/
  pageSize : Nat
  /-- The number of pages read. -/
  reads : UInt32
  /-- The number of pages written. -/
  writes : UInt32
  deriving DecidableEq

namespace Disk

/-- The disk of a file, just opened. -/
def ofFile (file : FileImage) (pageSize : Nat) : Disk :=
  ⟨file, pageSize, 0, 0⟩

/-- **Seeks a page**: the position at which it begins, if a file can have it. -/
def seek (d : Disk) (page : UInt32) : Except DiskHalt Nat :=
  let start := (PageFile.offset d.pageSize page).toNat
  if start < 9223372036854775808 then .ok start else .error .outOfRange

/-- **Reads a page** into a buffer of a length. -/
def read (d : Disk) (page : UInt32) (buffer : Nat) : Except DiskHalt (Image × Disk) :=
  if buffer ≠ d.pageSize then .error .breach
  else do
    match PageFile.readAt? d.file (← d.seek page) d.pageSize with
    | none => .error .endOfFile
    | some bytes => return (bytes, { d with reads := d.reads + 1 })

/-- **Writes a page.** -/
def write (d : Disk) (page : UInt32) (bytes : List UInt8) : Except DiskHalt Disk :=
  if bytes.length ≠ d.pageSize then .error .breach
  else do
    let start ← d.seek page
    return { d with
      file := PageFile.writeAt d.file start bytes
      writes := d.writes + 1 }

/-- **The number of pages**, the last of which may be cut short. -/
def pageCount (d : Disk) : Except DiskHalt UInt32 :=
  if d.pageSize = 0 then .error .breach
  else .ok (PageFile.pageCount d.pageSize d.file.size)

/-- **Writes a page behind the last one**, and gives its number. -/
def allocate (d : Disk) (bytes : List UInt8) : Except DiskHalt (UInt32 × Disk) :=
  if bytes.length ≠ d.pageSize then .error .breach
  else do
    let page ← d.pageCount
    let d' ← d.write page bytes
    return (page, d')

end Disk

end Tablespace
