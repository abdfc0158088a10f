import Tablespace.Heap.File
import Tablespace.Proofs.Page.Slots

/-!
# Nothing is read or written outside a page

A page that is asked for a byte which it does not have gives a zero, and one that is
written to behind its end stays as it is (`Image.byte`, `Image.write`). Neither ever
happens. To say so, everything that is done to a page is done here once more, on its
guard (`Page.perform?`): it comes to nothing as soon as it goes outside – outside the
page with a byte or a stretch, outside its slot with a row. It never comes to nothing,
and what it comes to is what is done without a guard (`Page.perform?_eq`).

The numbers behind it are those of the layout. `Layout.fits_tightly` puts them
together: the slots with their header fit into the page and one slot more would not,
and no two slots meet. The number of slots is the one that is computed in words of 64
bits, for pages and rows whose bits can be counted in one: a row that is wider is
taken for a shorter one. A heap file takes the pages and
rows that every page of its size can be made for.
-/

namespace Tablespace

/-- A row written over the bytes of a slot, if it takes no more than there are. -/
def Tuple.overwrite? (t : Tuple) (slot : List UInt8) : Option (List UInt8 × Option Fault) :=
  if slot.length = t.schema.rowSize ∧
      slot.length < (encodeColumns t.schema.columns t.values).1.length then none
  else some (t.overwrite slot)

/-- Writing a row never goes behind its slot. -/
theorem Tuple.overwrite?_eq (t : Tuple) (slot : List UInt8) :
    t.overwrite? slot = some (t.overwrite slot) := by
  have fits := length_encodeColumns_le t.schema.columns t.values
  rw [overwrite?, if_neg]
  rintro ⟨size, behind⟩
  rw [Schema.rowSize] at size
  omega

namespace Page

variable (p : Page)

/-! ## What is done on its guard -/

/-- Whether a slot is in use, if its bit lies in the page. -/
def isUsed? (slot : Nat) : Option Bool :=
  if p.slotCount ≤ slot then some false
  else p.image[slot / 8]?.map fun b => b &&& Layout.mask slot != 0

/-- The bytes of a slot, if they lie in the page. -/
def slotBytes? (slot : Nat) : Option (List UInt8) :=
  if p.slotStart slot + p.schema.rowSize ≤ p.image.size then some (p.slotBytes slot) else none

/-- The page with a slot put in use or out of use, if its bit lies in the page. -/
def setUsed? (slot : Nat) (used : Bool) : Option Page :=
  if slot / 8 < p.image.size then some (p.setUsed slot used) else none

/-- The page with other bytes in a slot, if they lie in the page. -/
def setSlot? (slot : Nat) (bytes : List UInt8) : Option Page :=
  if p.slotStart slot + bytes.length ≤ p.image.size then some (p.setSlot slot bytes) else none

/-- Stores a row on its guard. -/
def insert? (t : Tuple) : Option (Except Fault Tuple × Page) :=
  if t.schema.sameLayout p.schema then do
    match ← (List.range p.slotCount).findM? fun slot => (p.isUsed? slot).map (!·) with
    | none => return (.error .pageFull, p)
    | some slot =>
      let written ← t.overwrite? (← p.slotBytes? slot)
      let p' ← p.setSlot? slot written.1
      match written.2 with
      | some cause => return (.error cause, p')
      | none => return (.ok (t.located (some ⟨p.id, UInt16.ofNat slot⟩)), ← p'.setUsed? slot true)
  else return (.error (.mismatch (.pageLayout p.id)), p)

/-- Deletes a row on its guard. -/
def delete? (t : Tuple) : Option (Except Fault Page) :=
  match t.record with
  | none => return .error .missingRecordId
  | some record =>
    let slot := record.slot.toNat
    if record.page ≠ p.id then return .error (.recordNotOnPage record p.id)
    else if p.slotCount ≤ slot then return .error (.invalidSlot slot)
    else do
      if ← p.isUsed? slot then
        let p' ← p.setUsed? slot false
        return .ok (← p'.setSlot? slot (List.replicate p.schema.rowSize 0))
      else return .error (.emptySlot slot)

/-- Reads a slot on its guard. -/
def tupleAt? (slot : Nat) : Option (Except Fault (Option Tuple)) :=
  if p.slotCount ≤ slot then return .error (.invalidSlot slot)
  else do
    if ← p.isUsed? slot then
      return (Tuple.decode p.schema (← p.slotBytes? slot)).map fun t =>
        some (t.located (some ⟨p.id, UInt16.ofNat slot⟩))
    else return .ok none

/-- Reads all rows on its guard. -/
def tuples? : Option (Except Fault (List Tuple)) := do
  let rows ← (List.range p.slotCount).mapM p.tupleAt?
  return (rows.mapM fun row => row).map (·.filterMap fun t => t)

/-- Counts the slots on its guard. -/
def tally? : Option PageAnswer := do
  let flags ← (List.range p.slotCount).mapM p.isUsed?
  return .tally ((List.range p.slotCount).filter fun slot => flags[slot]? = some true)
    (flags.countP (!·)) (flags.any (!·))

/-- **What is done to a page, on its guard**: nothing, if it goes outside the page. -/
def perform? : PageCall → Option (Except Fault PageAnswer × Page)
  | .insert row => (p.insert? row).map fun r => (r.1.map .stored, r.2)
  | .delete row => (p.delete? row).map fun
    | .ok q => (.ok .done, q)
    | .error cause => (.error cause, p)
  | .read slot => (p.tupleAt? slot).map fun row => (row.map .row, p)
  | .list => p.tuples?.map fun rows => (rows.map .rows, p)
  | .tally => p.tally?.map fun answer => (.ok answer, p)
  | .rebuild => some (p.perform .rebuild)

/-- What is answered to calls that are done on their guard, one after the other, and
the page after them. -/
def run? (p : Page) : List PageCall → Option (List (Except Fault PageAnswer) × Page)
  | [] => some ([], p)
  | c :: calls => do
    let r ← p.perform? c
    let rest ← r.2.run? calls
    return (r.1 :: rest.1, rest.2)

/-! ## It stays inside -/

variable {p} {slot : Nat}

theorem isUsed?_eq (p : Page) (slot : Nat) : p.isUsed? slot = some (p.isUsed slot) := by
  rw [isUsed?, isUsed]
  by_cases there : p.slotCount ≤ slot
  · rw [if_pos there, decide_eq_false (Nat.not_lt.2 there), Bool.false_and]
  · have inside : slot / 8 < p.image.size := Layout.div_lt_page (Nat.not_le.1 there)
    rw [if_neg there, decide_eq_true (Nat.not_le.1 there), Bool.true_and, Image.byte,
      Array.getElem?_eq_getElem inside, Array.getD_eq_getD_getElem?,
      Array.getElem?_eq_getElem inside]
    rfl

theorem slotBytes?_eq (there : slot < p.slotCount) :
    p.slotBytes? slot = some (p.slotBytes slot) :=
  if_pos (Layout.slotStart_add_le there)

theorem setUsed?_eq (there : slot < p.slotCount) (used : Bool) :
    p.setUsed? slot used = some (p.setUsed slot used) :=
  if_pos (Layout.div_lt_page there)

theorem setSlot?_eq {bytes : List UInt8} (there : slot < p.slotCount)
    (length : bytes.length = p.schema.rowSize) :
    p.setSlot? slot bytes = some (p.setSlot slot bytes) :=
  if_pos (length ▸ Layout.slotStart_add_le there)

theorem insert?_eq (p : Page) (t : Tuple) : p.insert? t = some (p.insert t) := by
  have flags : (fun slot => (p.isUsed? slot).map (!·)) = fun slot => pure (!p.isUsed slot) := by
    funext slot
    rw [isUsed?_eq]
    rfl
  rw [insert?, insert, flags, List.findM?_pure, pure_bind, ← firstFree?]
  split
  · cases free : p.firstFree? with
    | none => rfl
    | some slot =>
      have there := (firstFree?_eq_some free).1
      have length : (t.overwrite (p.slotBytes slot)).1.length = p.schema.rowSize := by
        rw [Tuple.length_overwrite, length_slotBytes there]
      have there' : slot < (p.setSlot slot (t.overwrite (p.slotBytes slot)).1).slotCount :=
        (p.sameFrame_setSlot ..).slotCount ▸ there
      simp only [slotBytes?_eq there, Tuple.overwrite?_eq, setSlot?_eq there length,
        Option.bind_eq_bind, Option.bind_some]
      cases (t.overwrite (p.slotBytes slot)).2 with
      | some cause => rfl
      | none =>
        dsimp only
        rw [setUsed?_eq there']
        rfl
  · rfl

theorem delete?_eq (p : Page) (t : Tuple) : p.delete? t = some (p.delete t) := by
  rw [delete?, delete]
  cases t.record with
  | none => rfl
  | some record =>
    dsimp only
    split
    · rfl
    · split
      · rfl
      · rename_i count
        have there : record.slot.toNat < p.slotCount := Nat.not_le.1 count
        have there' : record.slot.toNat < (p.setUsed record.slot.toNat false).slotCount :=
          (p.sameFrame_setUsed ..).slotCount ▸ there
        have length : (List.replicate p.schema.rowSize (0 : UInt8)).length
            = (p.setUsed record.slot.toNat false).schema.rowSize := List.length_replicate
        rw [isUsed?_eq, Option.bind_eq_bind, Option.bind_some]
        split
        · rw [setUsed?_eq there, Option.bind_eq_bind, Option.bind_some, setSlot?_eq there' length]
          rfl
        · rfl

theorem tupleAt?_eq (p : Page) (slot : Nat) : p.tupleAt? slot = some (p.tupleAt slot) := by
  rw [tupleAt?, tupleAt]
  split
  · rfl
  · rename_i count
    rw [isUsed?_eq, Option.bind_eq_bind, Option.bind_some]
    split
    · rw [slotBytes?_eq (Nat.not_le.1 count)]
      rfl
    · rfl

theorem tuples?_eq (p : Page) : p.tuples? = some p.tuples := by
  have rows : p.tupleAt? = fun slot => pure (p.tupleAt slot) := funext p.tupleAt?_eq
  rw [tuples?, tuples, rows, List.mapM_pure, pure_bind, List.mapM_map]
  rfl

theorem tally?_eq (p : Page) :
    p.tally? = some (.tally p.usedSlots p.freeCount p.hasFreeSlot) := by
  have flags : p.isUsed? = fun slot => pure (p.isUsed slot) := funext p.isUsed?_eq
  have used : (List.range p.slotCount).filter (fun slot =>
      ((List.range p.slotCount).map p.isUsed)[slot]? = some true) = p.usedSlots := by
    refine List.filter_congr fun slot there => ?_
    rw [List.getElem?_map, List.getElem?_range (List.mem_range.1 there), Option.map_some]
    cases p.isUsed slot <;> rfl
  have free : ((List.range p.slotCount).map p.isUsed).countP (!·) = p.freeCount :=
    List.countP_map ..
  have room : ((List.range p.slotCount).map p.isUsed).any (!·) = p.hasFreeSlot := by
    rw [List.any_map, hasFreeSlot, firstFree?, List.isSome_find?]
    rfl
  rw [tally?, flags, List.mapM_pure, pure_bind, used, free, room]
  rfl

/-- **What is done to a page never goes outside it.** -/
theorem perform?_eq (p : Page) (c : PageCall) : p.perform? c = some (p.perform c) := by
  cases c with
  | insert row => rw [perform?, insert?_eq]; rfl
  | delete row =>
    rw [perform?, delete?_eq, perform]
    cases p.delete row <;> rfl
  | read slot => rw [perform?, tupleAt?_eq]; rfl
  | list => rw [perform?, tuples?_eq]; rfl
  | tally => rw [perform?, tally?_eq]; rfl
  | rebuild => rfl

/-- **However often something is done to it.** -/
theorem run?_eq (p : Page) (calls : List PageCall) : p.run? calls = some (p.run calls) := by
  induction calls generalizing p with
  | nil => rfl
  | cons c calls ih =>
    rw [run?, perform?_eq, Option.bind_eq_bind, Option.bind_some, ih]
    rfl

end Page

/-! ## What fits -/

namespace Page

/-- A page can be made of an image with a slot, and with no more slots than there are
numbers for. -/
theorem exists_ofImage_iff {id : PageId} {schema : Schema} {image : Image} :
    (∃ p, ofImage id schema image = .ok p) ↔
      0 < Layout.slotCount image.size schema.rowSize ∧
        Layout.slotCount image.size schema.rowSize ≤ Layout.maxSlots := by
  unfold ofImage
  constructor
  · rintro ⟨p, made⟩
    split at made
    · cases made
    · rename_i some
      split at made
      · exact ⟨Nat.pos_of_ne_zero some, ‹_›⟩
      · cases made
  · rintro ⟨some, few⟩
    rw [dif_neg (Nat.ne_of_gt some), dif_pos few]
    exact ⟨_, rfl⟩

end Page

namespace HeapFile

/-- A heap file can be made for pages with a slot, and with no more slots than there
are numbers for. -/
theorem exists_of_iff {c : Config} {table : TableId} {schema : Schema} {path : Path} :
    (∃ f, of c table schema path = .ok f) ↔ c.validate = .ok () ∧
      0 < Layout.slotCount c.pageSize schema.rowSize ∧
        Layout.slotCount c.pageSize schema.rowSize ≤ Layout.maxSlots := by
  unfold of
  cases valid : c.validate with
  | error cause =>
    constructor
    · rintro ⟨f, made⟩
      cases made
    · rintro ⟨absurd, -⟩
      cases absurd
  | ok _ =>
    rw [and_iff_right rfl]
    dsimp only [bind, Except.bind]
    constructor
    · rintro ⟨f, made⟩
      split at made
      · cases made
      · rename_i some
        split at made
        · exact ⟨Nat.pos_of_ne_zero some, ‹_›⟩
        · cases made
    · rintro ⟨some, few⟩
      rw [dif_neg (Nat.ne_of_gt some), dif_pos few]
      exact ⟨_, rfl⟩

end HeapFile

namespace Layout

variable {page row slot : Nat}

/-- No page has more slots than bits. -/
theorem slotCount_le (page row : Nat) : slotCount page row ≤ page * 8 :=
  Nat.div_le_self ..

/-- **The number of slots in words**: bits that can be counted are, and a row counts as
what is left of it when words wrap. -/
theorem toNat_slotsPerPage {page row : UInt64} (bits : page.toNat * 8 < 2 ^ 64) :
    (slotsPerPage page row).toNat = slotCount page.toNat (row.toNat % 2 ^ 61) := by
  have pages : (page * 8).toNat = page.toNat * 8 := by
    rw [UInt64.toNat_mul]
    exact Nat.mod_eq_of_lt bits
  have rows : (row * 8).toNat = row.toNat % 2 ^ 61 * 8 := by
    rw [UInt64.toNat_mul]
    exact Nat.mul_mod_mul_right 8 row.toNat (2 ^ 61)
  have slots : (row * 8 + 1).toNat = row.toNat % 2 ^ 61 * 8 + 1 := by
    rw [UInt64.toNat_add, rows]
    -- a multiple of eight is not the greatest word
    exact Nat.mod_eq_of_lt (by change row.toNat % 2 ^ 61 * 8 + 1 < 2 ^ 64; omega)
  rw [slotsPerPage, UInt64.toNat_div, pages, slots, slotCount]

/-- The header in words. -/
theorem toNat_headerSize (slots : UInt64) (few : slots.toNat + 7 < 2 ^ 64) :
    ((slots + 7) / 8).toNat = headerSize slots.toNat := by
  have sum : (slots + 7).toNat = slots.toNat + 7 := by
    rw [UInt64.toNat_add]
    exact Nat.mod_eq_of_lt few
  rw [UInt64.toNat_div, sum]
  rfl

/-- The end of a slot in words. -/
theorem toNat_slotEnd {header row : UInt64} {start : Nat}
    (is : header.toNat + slot * row.toNat = start) (short : start + row.toNat < 2 ^ 64)
    (few : slot < 2 ^ 64) :
    (header + UInt64.ofNat slot * row + row).toNat = start + row.toNat := by
  have product : (UInt64.ofNat slot * row).toNat = slot * row.toNat := by
    rw [UInt64.toNat_mul, UInt64.toNat_ofNat', Nat.mod_eq_of_lt few]
    exact Nat.mod_eq_of_lt (by omega)
  have sum : (header + UInt64.ofNat slot * row).toNat = start := by
    rw [UInt64.toNat_add, product, is]
    exact Nat.mod_eq_of_lt (by omega)
  rw [UInt64.toNat_add, sum]
  exact Nat.mod_eq_of_lt short

/-- **A page with so many slots**, which fit and are as many as would. -/
structure Tight (page row slots : Nat) : Prop where
  /-- The header and the slots lie in the page. -/
  fit : headerSize slots + slots * row ≤ page
  /-- With one slot more they would not. -/
  most : page < headerSize (slots + 1) + (slots + 1) * row
  /-- The bit of a slot lies in the header. -/
  bit : ∀ slot < slots, slot / 8 < headerSize slots
  /-- Its bytes lie behind the header, in the page. -/
  bytes : ∀ slot < slots, headerSize slots ≤ slotStart page row slot
    ∧ slotStart page row slot + row ≤ page
  /-- Two slots have different bits. -/
  distinct : ∀ slot < slots, ∀ other < slots, slot ≠ other →
    slot / 8 ≠ other / 8 ∨ mask slot &&& mask other = 0
  /-- They have no byte in common. -/
  disjoint : ∀ slot < slots, ∀ other < slots, slot ≠ other →
    slotStart page row slot + row ≤ slotStart page row other
      ∨ slotStart page row other + row ≤ slotStart page row slot
  /-- If there are no more of them than there are numbers of 16 bits, each has a number of its
  own. -/
  named : slots ≤ maxSlots → ∀ slot < slots, (UInt16.ofNat slot).toNat = slot

theorem tight_slotCount (page row : Nat) : Tight page row (slotCount page row) where
  fit := headerSize_add_le page row
  most := lt_headerSize_add page row
  bit slot there := by
    rw [headerSize]
    omega
  bytes slot there := ⟨Nat.le_add_right .., slotStart_add_le there⟩
  distinct slot _ other _ ne := by
    by_cases byte : slot / 8 = other / 8
    · exact .inr (mask_and_mask (by omega))
    · exact .inl byte
  disjoint slot _ other _ ne := slotStart_disjoint page row ne
  named few slot there := by
    rw [UInt16.toNat_ofNat']
    exact Nat.mod_eq_of_lt (Nat.lt_of_lt_of_le there few)

end Layout

end Tablespace
