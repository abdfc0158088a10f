import Tablespace.Image
import Tablespace.Page.Layout
import Tablespace.Tuple

/-!
# Heap pages

A heap page keeps rows of one schema in slots (`Layout`). Rows go into the
first slot that is not in use and are told where that is; a slot is emptied
by the row that was stored in it, and then its bytes are zero again.

A page knows the transaction that has changed it since it agreed with the
file – its **dirtier** – or none. The page itself never asks: whoever
changes it says on whose behalf (`Page.markDirty`).

## What a failed insertion leaves

A row is written column by column into the slot it is to take, and the slot
is put in use only then. If a value cannot be written, the slot stays out of
use, but the columns before have been written (`Tuple.overwrite`): the page
comes back with those bytes. The next row in that slot writes over them.
-/

namespace Tablespace

/-- **A heap page.** -/
structure Page where
  /-- Which page it is. -/
  id : PageId
  /-- The columns of its rows. -/
  schema : Schema
  /-- Its bytes. -/
  image : Image
  /-- The transaction that has changed it and has not ended. -/
  dirtier : Option TxnId
  /-- There is a slot. -/
  slots_pos : 0 < Layout.slotCount image.size schema.rowSize
  /-- Every slot has a number of 16 bits. -/
  slots_le : Layout.slotCount image.size schema.rowSize ≤ Layout.maxSlots
  deriving DecidableEq

namespace Page

/-- **The page of an image**, which is clean. The image must have room for
at least one row and for no more than slot numbers can name. -/
def ofImage (id : PageId) (schema : Schema) (image : Image) : Except Fault Page :=
  if few : Layout.slotCount image.size schema.rowSize = 0 then
    .error (.corruptPage id (.tooSmall image.size schema.rowSize))
  else if many : Layout.slotCount image.size schema.rowSize ≤ Layout.maxSlots then
    .ok ⟨id, schema, image, none, Nat.pos_of_ne_zero few, many⟩
  else
    .error (.corruptPage id
      (.tooManySlots (Layout.slotCount image.size schema.rowSize) Layout.maxSlots))

variable (p : Page)

/-- The number of slots. -/
def slotCount : Nat :=
  Layout.slotCount p.image.size p.schema.rowSize

/-- Where a slot begins. -/
def slotStart (slot : Nat) : Nat :=
  Layout.slotStart p.image.size p.schema.rowSize slot

/-- The bytes of a slot. -/
def slotBytes (slot : Nat) : List UInt8 :=
  p.image.slice (p.slotStart slot) p.schema.rowSize

/-- **Whether a slot is in use.** -/
def isUsed (slot : Nat) : Bool :=
  slot < p.slotCount && p.image.byte (slot / 8) &&& Layout.mask slot != 0

/-- The slots in use, in ascending order. -/
def usedSlots : List Nat :=
  (List.range p.slotCount).filter p.isUsed

/-- The first slot that is not in use. -/
def firstFree? : Option Nat :=
  (List.range p.slotCount).find? fun slot => !p.isUsed slot

/-- Whether a slot is not in use. -/
def hasFreeSlot : Bool :=
  p.firstFree?.isSome

/-- The number of slots not in use. -/
def freeCount : Nat :=
  (List.range p.slotCount).countP fun slot => !p.isUsed slot

/-- Whether a transaction has changed the page. -/
def isDirty : Bool :=
  p.dirtier.isSome

/-- The page on behalf of whom it is dirty, or clean. -/
def markDirty (dirtier : Option TxnId) : Page :=
  { p with dirtier := dirtier }

/-- The page with other bytes, of the same number. -/
def withImage (image : Image) (h : image.size = p.image.size) : Page :=
  { p with
    image := image
    slots_pos := h ▸ p.slots_pos
    slots_le := h ▸ p.slots_le }

/-- The page with a slot put in use or out of use. -/
def setUsed (slot : Nat) (used : Bool) : Page :=
  p.withImage
    (p.image.modify (slot / 8) fun b =>
      if used then b ||| Layout.mask slot else b &&& ~~~Layout.mask slot)
    (Array.size_modify ..)

/-- The page with other bytes in a slot. -/
def setSlot (slot : Nat) (bytes : List UInt8) : Page :=
  p.withImage (p.image.write (p.slotStart slot) bytes) (Image.size_write ..)

/-- **Stores a tuple in the first free slot.** The tuple comes back with its
place; the page comes back in any case. -/
def insert (t : Tuple) : Except Fault Tuple × Page :=
  if t.schema.sameLayout p.schema then
    match p.firstFree? with
    | none => (.error .pageFull, p)
    | some slot =>
      let written := t.overwrite (p.slotBytes slot)
      let p' := p.setSlot slot written.1
      match written.2 with
      | some cause => (.error cause, p')
      | none => (.ok (t.located (some ⟨p.id, UInt16.ofNat slot⟩)), p'.setUsed slot true)
  else (.error (.mismatch (.pageLayout p.id)), p)

/-- **Empties the slot that a tuple is stored in.** The tuple's place is all
that counts; its values are not looked at. -/
def delete (t : Tuple) : Except Fault Page :=
  match t.record with
  | none => .error .missingRecordId
  | some record =>
    let slot := record.slot.toNat
    if record.page ≠ p.id then .error (.recordNotOnPage record p.id)
    else if p.slotCount ≤ slot then .error (.invalidSlot slot)
    else if p.isUsed slot then
      .ok ((p.setUsed slot false).setSlot slot (List.replicate p.schema.rowSize 0))
    else .error (.emptySlot slot)

/-- **The tuple in a slot**, or none if the slot is not in use. -/
def tupleAt (slot : Nat) : Except Fault (Option Tuple) :=
  if p.slotCount ≤ slot then .error (.invalidSlot slot)
  else if p.isUsed slot then
    (Tuple.decode p.schema (p.slotBytes slot)).map fun t =>
      some (t.located (some ⟨p.id, UInt16.ofNat slot⟩))
  else .ok none

/-- **The tuples of the page**, in the order of their slots. -/
def tuples : Except Fault (List Tuple) :=
  ((List.range p.slotCount).mapM p.tupleAt).map (·.filterMap fun t => t)

end Page

end Tablespace
