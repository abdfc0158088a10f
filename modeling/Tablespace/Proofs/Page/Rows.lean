import Tablespace.Page.Basic
import Tablespace.Proofs.Codec.Tuple
import Tablespace.Proofs.Page.Layout

/-!
# A page is a map from slots to rows

What a page holds is what is read from its slots (`Page.rowAt`): the values
of a row where the slot is in use, and nothing elsewhere. This module says
what every operation on a page does to that map. An insertion that succeeds
puts the row, as its columns keep it, into the first free slot
(`Page.insert_ok`); one that fails changes bytes at most, and no row
(`Page.insert_error`); a deletion empties the slot that it names
(`Page.delete_ok`).
-/

namespace Tablespace

namespace Page

/-- **The row in a slot**, as it is read. -/
def rowAt (p : Page) (slot : Nat) : Option (List Value) :=
  match p.tupleAt slot with
  | .ok (some t) => some t.values
  | _ => none

/-- **Another state of the same page**: of the same name, schema and size. -/
structure Alike (p q : Page) : Prop where
  id : q.id = p.id
  schema : q.schema = p.schema
  size : q.image.size = p.image.size

/-- Another state of the same page, changed by the same transaction. -/
structure SameFrame (p q : Page) : Prop extends p.Alike q where
  dirtier : q.dirtier = p.dirtier

variable {p q : Page} {slot : Nat}

theorem Alike.refl (p : Page) : p.Alike p :=
  ⟨rfl, rfl, rfl⟩

theorem Alike.trans {r : Page} (pq : p.Alike q) (qr : q.Alike r) : p.Alike r :=
  ⟨qr.id.trans pq.id, qr.schema.trans pq.schema, qr.size.trans pq.size⟩

theorem Alike.slotCount (same : p.Alike q) : q.slotCount = p.slotCount := by
  rw [Page.slotCount, Page.slotCount, same.size, same.schema]

theorem alike_markDirty (p : Page) (dirtier : Option TxnId) : p.Alike (p.markDirty dirtier) :=
  ⟨rfl, rfl, rfl⟩

theorem SameFrame.refl (p : Page) : p.SameFrame p :=
  ⟨.refl p, rfl⟩

theorem SameFrame.trans {r : Page} (pq : p.SameFrame q) (qr : q.SameFrame r) : p.SameFrame r :=
  ⟨pq.toAlike.trans qr.toAlike, qr.dirtier.trans pq.dirtier⟩

/-- A page that is made has the bytes and the columns that it is made of. -/
theorem ofImage_ok {id : PageId} {schema : Schema} {image : Image}
    (made : ofImage id schema image = .ok p) : p.image = image ∧ p.schema = schema := by
  unfold ofImage at made
  split at made
  · cases made
  · split at made
    · cases made
      exact ⟨rfl, rfl⟩
    · cases made

/-! ## Reading -/

/-- The slots of a page have numbers of 16 bits. -/
theorem toNat_ofNat_slot (there : slot < p.slotCount) :
    (UInt16.ofNat slot).toNat = slot := by
  have small : slot < 65536 := Nat.lt_of_lt_of_le there p.slots_le
  rw [UInt16.toNat_ofNat', Nat.mod_eq_of_lt small]

/-- A slot in use is one of the page. -/
theorem lt_slotCount_of_isUsed (used : p.isUsed slot = true) : slot < p.slotCount := by
  by_contra behind
  rw [isUsed, decide_eq_false behind, Bool.false_and] at used
  cases used

/-- Whether a slot of the page is in use is a bit of the header. -/
theorem isUsed_eq_testBit (h : slot < p.slotCount) :
    p.isUsed slot = Layout.testBit (p.image.byte (slot / 8)) slot := by
  rw [isUsed, Layout.and_mask_bne_zero, decide_eq_true h, Bool.true_and]

/-- A slot of the page has all its bytes. -/
theorem length_slotBytes (h : slot < p.slotCount) :
    (p.slotBytes slot).length = p.schema.rowSize :=
  Image.length_slice (Layout.slotStart_add_le h)

/-- Reading a slot of the page never fails. -/
theorem tupleAt_eq_ok (h : slot < p.slotCount) :
    p.tupleAt slot = .ok (if p.isUsed slot then
      some ⟨p.schema, Tuple.readColumns p.schema.columns (p.slotBytes slot),
        some ⟨p.id, UInt16.ofNat slot⟩, Tuple.length_readColumns ..⟩ else none) := by
  rw [tupleAt, if_neg (Nat.not_le.2 h)]
  split
  · rw [Tuple.decode_eq_ok (Nat.le_of_eq (length_slotBytes h).symm)]
    rfl
  · rfl

/-- **The row of a slot in use is read from its bytes.** -/
theorem rowAt_eq :
    p.rowAt slot = if p.isUsed slot then
      some (Tuple.readColumns p.schema.columns (p.slotBytes slot)) else none := by
  unfold rowAt
  by_cases h : slot < p.slotCount
  · rw [tupleAt_eq_ok h]
    cases p.isUsed slot <;> rfl
  · have unused : p.isUsed slot = false := by simp [isUsed, h]
    rw [unused, tupleAt, if_pos (Nat.not_lt.1 h)]
    rfl

/-- A slot is in use exactly if there is a row to be read. -/
theorem isSome_rowAt : (p.rowAt slot).isSome = p.isUsed slot := by
  rw [rowAt_eq]
  cases p.isUsed slot <;> rfl

/-- The rows of a page are those of its slots, which have numbers of 16
bits. -/
theorem rowAt_congr (alike : p.Alike q)
    (same : ∀ slot : SlotId, q.rowAt slot.toNat = p.rowAt slot.toNat) (slot : Nat) :
    q.rowAt slot = p.rowAt slot := by
  by_cases there : slot < p.slotCount
  · have shown := same (UInt16.ofNat slot)
    rwa [toNat_ofNat_slot there] at shown
  · rw [rowAt_eq, rowAt_eq, isUsed, isUsed, alike.slotCount, decide_eq_false there,
      Bool.false_and, Bool.false_and, if_neg Bool.false_ne_true, if_neg Bool.false_ne_true]

/-- Two pages of one name and schema that hold the same rows read the same
in every slot. -/
theorem tupleAt_congr (alike : p.Alike q) (rows : q.rowAt slot = p.rowAt slot) :
    q.tupleAt slot = p.tupleAt slot := by
  have count := alike.slotCount
  by_cases h : slot < p.slotCount
  · rw [tupleAt_eq_ok h, tupleAt_eq_ok (count ▸ h)]
    have used : q.isUsed slot = p.isUsed slot := by rw [← isSome_rowAt, rows, isSome_rowAt]
    rw [rowAt_eq, rowAt_eq, used, alike.schema] at rows
    rw [used]
    split
    · rename_i inUse
      rw [if_pos inUse, if_pos inUse] at rows
      have values := Option.some.inj rows
      simp only [alike.id, alike.schema, values]
    · rfl
  · rw [tupleAt, tupleAt, if_pos (Nat.not_lt.1 h), if_pos (count ▸ Nat.not_lt.1 h)]

/-- **What is read from a slot**: a row, or none. -/
def read? (p : Page) (slot : Nat) : Option Tuple :=
  match p.tupleAt slot with
  | .ok row => row
  | .error _ => none

theorem tupleAt_of_lt (h : slot < p.slotCount) : p.tupleAt slot = .ok (p.read? slot) := by
  rw [read?, tupleAt_eq_ok h]

/-- What is read is a row under the columns of the page, in its place. -/
theorem read?_eq_some_iff {t : Tuple} :
    p.read? slot = some t ↔ p.rowAt slot = some t.values ∧ t.schema = p.schema
      ∧ t.record = some ⟨p.id, UInt16.ofNat slot⟩ := by
  by_cases h : slot < p.slotCount
  · rw [read?, rowAt_eq, tupleAt_eq_ok h]
    cases p.isUsed slot with
    | false => simp
    | true =>
      cases t
      simp only [if_pos, Option.some.injEq, Tuple.mk.injEq]
      grind
  · rw [read?, rowAt, tupleAt, if_pos (Nat.not_lt.1 h)]
    simp

/-- A slot is in use exactly if it is read as a row. -/
theorem isSome_read? : (p.read? slot).isSome = p.isUsed slot := by
  rw [← isSome_rowAt]
  cases row : p.read? slot with
  | some t => rw [(read?_eq_some_iff.1 row).1]; rfl
  | none =>
    unfold read? at row
    unfold rowAt
    cases read : p.tupleAt slot with
    | error cause => rfl
    | ok t =>
      have none : t = none := by rwa [read] at row
      rw [none]
      rfl

/-- Reading each of some slots of the page never fails. -/
theorem mapM_tupleAt {slots : List Nat} (h : ∀ slot ∈ slots, slot < p.slotCount) :
    slots.mapM p.tupleAt = .ok (slots.map p.read?) := by
  induction slots with
  | nil => rfl
  | cons slot slots ih =>
    rw [List.mapM_cons, tupleAt_of_lt (h slot List.mem_cons_self),
      ih fun s hs => h s (List.mem_cons_of_mem _ hs)]
    rfl

/-- **The rows of a page can always be read**: they are what is read from its
slots. -/
theorem tuples_eq (p : Page) : p.tuples = .ok ((List.range p.slotCount).filterMap p.read?) := by
  rw [tuples, mapM_tupleAt fun slot => List.mem_range.1]
  exact congrArg Except.ok (List.filterMap_map ..)

/-- **Two pages of one name and schema that hold the same rows give the same
tuples** in the same order. -/
theorem tuples_congr (alike : p.Alike q) (rows : ∀ slot, q.rowAt slot = p.rowAt slot) :
    q.tuples = p.tuples := by
  have read : q.tupleAt = p.tupleAt := funext fun slot => tupleAt_congr alike (rows slot)
  rw [tuples, tuples, read, alike.slotCount]

/-! ## Pages that hold the same rows -/

/-- **Another state of the same page that holds the same rows**, changed by the
same transaction. The bytes that are no rows may differ. -/
structure SameRows (p q : Page) : Prop extends p.SameFrame q where
  rows : ∀ slot, q.rowAt slot = p.rowAt slot

namespace SameRows

variable (same : p.SameRows q)

include same

theorem isUsed (slot : Nat) : q.isUsed slot = p.isUsed slot := by
  rw [← isSome_rowAt, same.rows, isSome_rowAt]

/-- The same slots are in use. -/
theorem usedSlots : q.usedSlots = p.usedSlots := by
  have used : q.isUsed = p.isUsed := funext same.isUsed
  rw [Page.usedSlots, Page.usedSlots, used, same.slotCount]

/-- The same slot is the first that is free. -/
theorem firstFree? : q.firstFree? = p.firstFree? := by
  have used : q.isUsed = p.isUsed := funext same.isUsed
  rw [Page.firstFree?, Page.firstFree?, used, same.slotCount]

theorem hasFreeSlot : q.hasFreeSlot = p.hasFreeSlot := by
  rw [Page.hasFreeSlot, Page.hasFreeSlot, same.firstFree?]

/-- **They give the same tuples.** -/
theorem tuples : q.tuples = p.tuples :=
  tuples_congr same.toAlike same.rows

/-- **An insertion answers the same**: where the row goes does not depend on
bytes that are no rows. -/
theorem insert (row : Tuple) : (q.insert row).1 = (p.insert row).1 := by
  unfold Page.insert
  rw [same.schema, same.firstFree?, same.id]
  split
  · cases free : p.firstFree? with
    | none => rfl
    | some slot =>
      have there : slot < p.slotCount :=
        List.mem_range.1 (List.mem_of_find?_eq_some free)
      have length : (q.slotBytes slot).length = (p.slotBytes slot).length := by
        rw [length_slotBytes there, length_slotBytes (same.slotCount ▸ there), same.schema]
      dsimp only
      rw [Tuple.overwrite_snd_congr length]
      cases (row.overwrite (p.slotBytes slot)).2 <;> rfl
  · rfl

/-- **A deletion answers the same.** -/
theorem delete (row : Tuple) :
    (q.delete row).map (fun _ => ()) = (p.delete row).map fun _ => () := by
  unfold Page.delete
  cases row.record with
  | none => rfl
  | some record =>
    dsimp only
    rw [same.id, same.slotCount, same.isUsed]
    split
    · rfl
    · split
      · rfl
      · split <;> rfl

end SameRows

/-! ## The parts of a change -/

theorem image_setUsed (p : Page) (slot : Nat) (used : Bool) :
    (p.setUsed slot used).image = p.image.modify (slot / 8) fun b =>
      if used then b ||| Layout.mask slot else b &&& ~~~Layout.mask slot :=
  rfl

theorem sameFrame_setUsed (p : Page) (slot : Nat) (used : Bool) :
    p.SameFrame (p.setUsed slot used) :=
  ⟨⟨rfl, rfl, Array.size_modify ..⟩, rfl⟩

theorem sameFrame_setSlot (p : Page) (slot : Nat) (bytes : List UInt8) :
    p.SameFrame (p.setSlot slot bytes) :=
  ⟨⟨rfl, rfl, Image.size_write ..⟩, rfl⟩

/-- Putting a slot in use or out of use leaves the other slots as they
are. -/
theorem isUsed_setUsed (used : Bool) (h : slot < p.slotCount) (other : Nat) :
    (p.setUsed slot used).isUsed other = if other = slot then used else p.isUsed other := by
  have count : (p.setUsed slot used).slotCount = p.slotCount := (p.sameFrame_setUsed ..).slotCount
  by_cases there : other < p.slotCount
  · have byte : (p.setUsed slot used).image.byte (other / 8)
        = if slot / 8 = other / 8 then
            (if used then p.image.byte (other / 8) ||| Layout.mask slot
              else p.image.byte (other / 8) &&& ~~~Layout.mask slot)
          else p.image.byte (other / 8) := Image.byte_modify _ (Layout.div_lt_page h)
    rw [isUsed_eq_testBit (count ▸ there), isUsed_eq_testBit there, byte]
    by_cases same : slot / 8 = other / 8
    · rw [if_pos same]
      have bits : slot % 8 = other % 8 ↔ other = slot := by omega
      cases used with
      | true =>
        rw [if_pos rfl, Layout.testBit_setMask]
        by_cases eq : other = slot <;> simp [bits, eq]
      | false =>
        rw [if_neg Bool.false_ne_true, Layout.testBit_clearMask]
        by_cases eq : other = slot <;> simp [bits, eq]
    · rw [if_neg same, if_neg fun eq => same (by rw [eq])]
  · have ne : other ≠ slot := fun eq => there (eq ▸ h)
    rw [if_neg ne, isUsed, isUsed, count, decide_eq_false there, Bool.false_and, Bool.false_and]

/-- The bits of the slots leave the bytes of the slots as they are. -/
theorem slotBytes_setUsed (used : Bool) (h : slot < p.slotCount) (other : Nat) :
    (p.setUsed slot used).slotBytes other = p.slotBytes other := by
  have start : (p.setUsed slot used).slotStart other = p.slotStart other := by
    rw [slotStart, slotStart, (p.sameFrame_setUsed ..).size, (p.sameFrame_setUsed ..).schema]
  rw [slotBytes, slotBytes, start, (p.sameFrame_setUsed ..).schema, image_setUsed]
  exact Image.slice_modify_of_lt (Layout.div_lt_slotStart h other)

/-- The bytes of a slot leave the bits of the slots as they are. -/
theorem isUsed_setSlot (bytes : List UInt8) (slot other : Nat) :
    (p.setSlot slot bytes).isUsed other = p.isUsed other := by
  have count : (p.setSlot slot bytes).slotCount = p.slotCount :=
    (p.sameFrame_setSlot ..).slotCount
  by_cases there : other < p.slotCount
  · rw [isUsed_eq_testBit (count ▸ there), isUsed_eq_testBit there]
    exact congrArg (Layout.testBit · other)
      (Image.byte_write_of_lt (Layout.div_lt_slotStart there slot))
  · rw [isUsed, isUsed, count, decide_eq_false there, Bool.false_and, Bool.false_and]

/-- What was written into a slot of the page stands there, and the other
slots are as they were. -/
theorem slotBytes_setSlot {bytes : List UInt8} (h : slot < p.slotCount)
    (length : bytes.length = p.schema.rowSize) (other : Nat) :
    (p.setSlot slot bytes).slotBytes other = if other = slot then bytes else p.slotBytes other := by
  have start : (p.setSlot slot bytes).slotStart other = p.slotStart other := by
    rw [slotStart, slotStart, (p.sameFrame_setSlot ..).size, (p.sameFrame_setSlot ..).schema]
  rw [slotBytes, start]
  split
  · rename_i eq
    rw [eq, (p.sameFrame_setSlot ..).schema, ← length]
    exact Image.slice_write_self (length ▸ Layout.slotStart_add_le h)
  · rename_i ne
    refine Image.slice_write_of_disjoint ?_
    rw [length]
    exact Layout.slotStart_disjoint _ _ ne

/-! ## The operations -/

theorem firstFree?_eq_some {slot : Nat} (h : p.firstFree? = some slot) :
    slot < p.slotCount ∧ p.isUsed slot = false :=
  ⟨List.mem_range.1 (List.mem_of_find?_eq_some h), by simpa using List.find?_some h⟩

/-- **An insertion that succeeds** puts the row, as the columns keep it, into
a slot that was free, and gives it the place. -/
theorem insert_ok {row stored : Tuple} (h : p.insert row = (.ok stored, q)) :
    ∃ slot : SlotId, slot.toNat < p.slotCount ∧ p.rowAt slot.toNat = none
      ∧ stored = row.located (some ⟨p.id, slot⟩) ∧ p.SameFrame q
      ∧ ∀ s, q.rowAt s = if s = slot.toNat then some (p.schema.keep row.values) else p.rowAt s := by
  unfold insert at h
  split at h
  · rename_i layout
    cases free : p.firstFree? with
    | none => rw [free] at h; cases h
    | some slot =>
      rw [free] at h
      obtain ⟨there, unused⟩ := firstFree?_eq_some free
      have number := toNat_ofNat_slot there
      dsimp only at h
      split at h
      · cases h
      · rename_i written
        cases h
        have length : (row.overwrite (p.slotBytes slot)).1.length = p.schema.rowSize := by
          rw [Tuple.length_overwrite, length_slotBytes there]
        have there' : slot < (p.setSlot slot (row.overwrite (p.slotBytes slot)).1).slotCount :=
          (p.sameFrame_setSlot ..).slotCount ▸ there
        refine ⟨UInt16.ofNat slot, number.symm ▸ there, ?_, rfl,
          (p.sameFrame_setSlot ..).trans (sameFrame_setUsed ..), fun s => ?_⟩
        · rw [number, rowAt_eq, unused]
          rfl
        · rw [number, rowAt_eq, rowAt_eq, isUsed_setUsed _ there', isUsed_setSlot,
            slotBytes_setUsed _ there', slotBytes_setSlot there length]
          split
          · rw [if_pos rfl]
            exact congrArg some (Tuple.readColumns_overwrite layout written)
          · rfl
  · cases h

/-- A page without a free slot holds a row in each. -/
theorem rowAt_ne_none_of_full (full : p.hasFreeSlot = false) (there : slot < p.slotCount) :
    p.rowAt slot ≠ none := by
  rw [hasFreeSlot, firstFree?, Option.isSome_eq_false_iff, Option.isNone_iff_eq_none,
    List.find?_eq_none] at full
  have used : p.isUsed slot = true := by simpa using full slot (List.mem_range.2 there)
  rw [← isSome_rowAt] at used
  exact Option.isSome_iff_ne_none.1 used

/-- **The slot that a row is put into is the first free one**: all before it hold a
row. -/
theorem rowAt_ne_none_of_insert {row : Tuple} {place : SlotId}
    (h : p.insert row = (.ok (row.located (some ⟨p.id, place⟩)), q)) (before : slot < place.toNat) :
    p.rowAt slot ≠ none := by
  unfold insert at h
  split at h
  · cases free : p.firstFree? with
    | none => rw [free] at h; cases h
    | some first =>
      have small : first < 65536 := Nat.lt_of_lt_of_le (firstFree?_eq_some free).1 p.slots_le
      rw [free] at h
      dsimp only at h
      split at h
      · cases h
      · have stored := Except.ok.inj (Prod.ext_iff.1 h).1
        have same : UInt16.ofNat first = place :=
          (RecordId.mk.inj (Option.some.inj (congrArg Tuple.record stored))).2
        have number : place.toNat = first := by simp [← same, Nat.mod_eq_of_lt small]
        obtain ⟨-, -, skipped⟩ := List.find?_range_eq_some.1 free
        have used : p.isUsed slot = true := by simpa using skipped slot (number ▸ before)
        rw [← isSome_rowAt] at used
        exact Option.isSome_iff_ne_none.1 used
  · cases h

/-- **An insertion that fails** changes no row. -/
theorem insert_error {row : Tuple} {cause : Fault} (h : p.insert row = (.error cause, q)) :
    p.SameFrame q ∧ ∀ s, q.rowAt s = p.rowAt s := by
  unfold insert at h
  split at h
  · cases free : p.firstFree? with
    | none =>
      rw [free] at h
      cases h
      exact ⟨.refl p, fun _ => rfl⟩
    | some slot =>
      rw [free] at h
      obtain ⟨there, unused⟩ := firstFree?_eq_some free
      dsimp only at h
      split at h
      · cases h
        have length : (row.overwrite (p.slotBytes slot)).1.length = p.schema.rowSize := by
          rw [Tuple.length_overwrite, length_slotBytes there]
        refine ⟨sameFrame_setSlot .., fun s => ?_⟩
        -- bytes were written, but into a slot that is still out of use
        rw [rowAt_eq, rowAt_eq, isUsed_setSlot, slotBytes_setSlot there length]
        by_cases eq : s = slot
        · rw [eq, unused, if_neg Bool.false_ne_true, if_neg Bool.false_ne_true]
        · rw [if_neg eq]
          rfl
      · cases h
  · cases h
    exact ⟨.refl p, fun _ => rfl⟩

/-- An insertion leaves the page in its frame, whatever comes of it. -/
theorem sameFrame_insert (p : Page) (row : Tuple) : p.SameFrame (p.insert row).2 := by
  cases h : p.insert row with | mk outcome q =>
  cases outcome with
  | error cause => exact (insert_error h).1
  | ok stored =>
    obtain ⟨-, -, -, -, same, -⟩ := insert_ok h
    exact same

theorem id_insert (p : Page) (row : Tuple) : (p.insert row).2.id = p.id :=
  (p.sameFrame_insert row).id

/-- **An insertion that fails** leaves the bytes as they are, if the row
conforms. -/
theorem eq_of_insert_error {row : Tuple} {cause : Fault} (conforms : row.Conforms)
    (h : p.insert row = (.error cause, q)) : q = p := by
  unfold insert at h
  split at h
  · rename_i layout
    cases free : p.firstFree? with
    | none => rw [free] at h; cases h; rfl
    | some slot =>
      have size : (p.slotBytes slot).length = row.schema.rowSize := by
        rw [length_slotBytes (firstFree?_eq_some free).1, Schema.rowSize_congr layout]
      rw [free] at h
      dsimp only at h
      rw [conforms.overwrite size] at h
      cases h
  · cases h
    rfl

/-- **A deletion that succeeds** empties the slot that the row names, which
held a row. -/
theorem delete_ok {row : Tuple} (h : p.delete row = .ok q) :
    ∃ record : RecordId, row.record = some record ∧ record.page = p.id
      ∧ record.slot.toNat < p.slotCount ∧ (p.rowAt record.slot.toNat).isSome ∧ p.SameFrame q
      ∧ ∀ s, q.rowAt s = if s = record.slot.toNat then none else p.rowAt s := by
  unfold delete at h
  cases place : row.record with
  | none => rw [place] at h; cases h
  | some record =>
    rw [place] at h
    dsimp only at h
    split at h
    · cases h
    · rename_i page
      split at h
      · cases h
      · rename_i count
        split at h
        · rename_i used
          cases h
          have there : record.slot.toNat < p.slotCount := Nat.not_le.1 count
          have there' : record.slot.toNat < (p.setUsed record.slot.toNat false).slotCount :=
            (p.sameFrame_setUsed ..).slotCount ▸ there
          refine ⟨record, rfl, Decidable.not_not.1 page, there, isSome_rowAt.trans used,
            (p.sameFrame_setUsed ..).trans (sameFrame_setSlot ..), fun s => ?_⟩
          have length : (List.replicate p.schema.rowSize (0 : UInt8)).length
              = (p.setUsed record.slot.toNat false).schema.rowSize := List.length_replicate
          rw [rowAt_eq, rowAt_eq, isUsed_setSlot, isUsed_setUsed _ there,
            slotBytes_setSlot there' length, slotBytes_setUsed _ there]
          by_cases eq : s = record.slot.toNat
          · rw [if_pos eq, if_neg Bool.false_ne_true, if_pos eq]
          · rw [if_neg eq, if_neg eq, if_neg eq]
            rfl
        · cases h

end Page

end Tablespace
