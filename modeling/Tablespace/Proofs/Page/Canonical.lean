import Tablespace.Proofs.Page.Remains
import Tablespace.Proofs.Page.Slots

/-!
# A page has no memory

Bytes of a page that belong to no row could have any value and nobody would read
them. But a page that starts with zeros keeps them zero: a deletion writes zeros over
the bytes of its slot, and a row that is stored fills its slot with bytes that are
told by its values alone, padding and all. So what the bytes of such a page are is
told by its rows (`Page.Canonical.image_congr`). It does not matter in which order
they came, or what was there in between. In particular, a row that is deleted right
after it was stored leaves no trace.

That a page is canonical (`Page.Canonical`) is kept by every change of one slot, and
storing and deleting are nothing else (`Page.rewrite`).
-/

namespace Tablespace

/-! ## The bytes of a row -/

/-- A value has the same bytes as the column keeps it. -/
theorem Value.encode_widen (v : Value) (type : DataType) :
    (v.widen type).encode type = v.encode type := by
  cases v with
  | int n => cases type <;> rfl
  | bool b => rfl
  | big n => rfl
  | str s => rfl

namespace Tuple

/-- Bytes depend on the types of the columns only. -/
theorem encodeColumns_congr {cs ds : List Column} (same : cs.map (·.type) = ds.map (·.type))
    (values : List Value) : encodeColumns cs values = encodeColumns ds values := by
  induction cs generalizing ds values with
  | nil =>
    rw [List.map_nil, eq_comm, List.map_eq_nil_iff] at same
    rw [same]
  | cons c cs ih =>
    cases ds with
    | nil => cases same
    | cons d ds =>
      have head : c.type = d.type := (List.cons.inj same).1
      cases values with
      | nil => rfl
      | cons v vs => rw [encodeColumns, encodeColumns, head, ih (List.cons.inj same).2]

/-- Values have the same bytes as the columns keep them. -/
theorem encodeColumns_keep (columns : List Column) (values : List Value) :
    encodeColumns columns (List.zipWith Value.widen values (columns.map (·.type)))
      = encodeColumns columns values := by
  induction columns generalizing values with
  | nil => cases values <;> rfl
  | cons c cs ih =>
    cases values with
    | nil => rfl
    | cons v vs =>
      rw [List.map_cons, List.zipWith_cons_cons, encodeColumns, encodeColumns,
        Value.encode_widen, ih]

/-- **A row that conforms has canonical bytes**, under any schema of its layout. -/
theorem Conforms.canonical {row : Tuple} {schema : Schema} (conforms : row.Conforms)
    (layout : row.schema.sameLayout schema = true) :
    ∃ bs, bs.length = schema.rowSize ∧ Canonical schema.columns bs ∧
      ∀ slot : List UInt8, slot.length = schema.rowSize → row.overwrite slot = (bs, none) := by
  have types : row.schema.columns.map (·.type) = schema.columns.map (·.type) :=
    of_decide_eq_true layout
  obtain ⟨bs, -, written, size, fills⟩ := conforms.encode
  rw [encodeColumns_congr types] at written
  rw [Schema.rowSize_congr layout] at size fills
  have full : (encodeColumns schema.columns row.values).2 = none := by rw [written]
  have length : row.values.length = schema.columns.length := by
    rw [row.length_values, Schema.length_eq_of_sameLayout layout]
  have read := (readColumns_encodeColumns length full []).2
  rw [written, List.append_nil] at read
  refine ⟨bs, size, (encodeColumns_readColumns_iff (Nat.le_of_eq size.symm)).1 ?_, fills⟩
  rw [read, encodeColumns_keep, written]
  exact congrArg (·, none) (List.take_of_length_le (Nat.le_of_eq size)).symm

/-- **Canonical bytes are told by the values** that are read from them. -/
theorem eq_of_readColumns {columns : List Column} {bs bs' : List UInt8}
    (size : bs.length = Schema.sizeOf columns) (size' : bs'.length = Schema.sizeOf columns)
    (canonical : Canonical columns bs) (canonical' : Canonical columns bs')
    (same : readColumns columns bs = readColumns columns bs') : bs = bs' := by
  have written := (encodeColumns_readColumns_iff (Nat.le_of_eq size.symm)).2 canonical
  have written' := (encodeColumns_readColumns_iff (Nat.le_of_eq size'.symm)).2 canonical'
  rw [same, written', List.take_of_length_le (Nat.le_of_eq size),
    List.take_of_length_le (Nat.le_of_eq size')] at written
  exact (Prod.ext_iff.1 written).1.symm

end Tuple

/-! ## The bytes of a page -/

namespace Image

variable {a : Image} {start length i : Nat}

theorem byte_zeros (size i : Nat) : (zeros size).byte i = 0 := by
  rw [byte, zeros, Array.getD_eq_getD_getElem?, Array.getElem?_replicate]
  split <;> rfl

/-- A byte of a stretch. -/
theorem byte_eq_slice (first : start ≤ i) (last : i < start + length) :
    a.byte i = ((a.slice start length)[i - start]?).getD 0 := by
  rw [getElem?_slice, if_pos (by omega), Nat.add_sub_cancel' first, byte,
    Array.getD_eq_getD_getElem?]

/-- A byte of an image that was written over. -/
theorem byte_write {bs : List UInt8} (inside : start + bs.length ≤ a.size) (i : Nat) :
    (a.write start bs).byte i
      = if start ≤ i ∧ i < start + bs.length then (bs[i - start]?).getD 0 else a.byte i := by
  rw [byte, byte, Array.getD_eq_getD_getElem?, Array.getD_eq_getD_getElem?, getElem?_write]
  by_cases within : start ≤ i ∧ i < start + bs.length
  · rw [if_pos within, if_pos (by omega)]
  · rw [if_neg within, if_neg (by omega)]

/-- Images of one size that have the same bytes are the same. -/
theorem ext_byte {b : Image} (size : a.size = b.size) (same : ∀ i < a.size, a.byte i = b.byte i) :
    a = b := by
  refine Array.ext size fun i inA inB => ?_
  have byte := same i inA
  rwa [Image.byte, Image.byte, Array.getD_eq_getD_getElem?, Array.getD_eq_getD_getElem?,
    Array.getElem?_eq_getElem inA, Array.getElem?_eq_getElem inB] at byte

end Image

namespace Page

variable {p q : Page} {slot : Nat} {bs : List UInt8} {used : Bool}

/-- **The page with a slot rewritten**: other bytes, in use or not. -/
def rewrite (p : Page) (slot : Nat) (bs : List UInt8) (used : Bool) : Page :=
  (p.setSlot slot bs).setUsed slot used

theorem sameFrame_rewrite : p.SameFrame (p.rewrite slot bs used) :=
  (p.sameFrame_setSlot ..).trans (sameFrame_setUsed ..)

/-- A byte of a page with a slot rewritten: it holds the bit of the slot, or is one of
its bytes, or is as it was. -/
theorem byte_rewrite (there : slot < p.slotCount) (length : bs.length = p.schema.rowSize)
    (i : Nat) :
    (p.rewrite slot bs used).image.byte i
      = if slot / 8 = i then
          (if used then p.image.byte i ||| Layout.mask slot
            else p.image.byte i &&& ~~~Layout.mask slot)
        else if p.slotStart slot ≤ i ∧ i < p.slotStart slot + bs.length then
          (bs[i - p.slotStart slot]?).getD 0
        else p.image.byte i := by
  have inside : p.slotStart slot + bs.length ≤ p.image.size :=
    length ▸ Layout.slotStart_add_le there
  have header : slot / 8 < p.slotStart slot := Layout.div_lt_slotStart there slot
  have written (i : Nat) := Image.byte_write inside i
  have bit : slot / 8 < (p.setSlot slot bs).image.size :=
    (p.sameFrame_setSlot slot bs).size ▸ Layout.div_lt_page there
  rw [rewrite, image_setUsed, Image.byte_modify _ bit]
  by_cases here : slot / 8 = i
  · have before : (p.setSlot slot bs).image.byte i = p.image.byte i :=
      (written i).trans (if_neg (by omega))
    rw [if_pos here, if_pos here, before]
  · rw [if_neg here, if_neg here]
    exact written i

/-- It does not matter whether the bit or the bytes of a slot are written first. -/
theorem setSlot_setUsed (there : slot < p.slotCount) (length : bs.length = p.schema.rowSize) :
    (p.setUsed slot used).setSlot slot bs = p.rewrite slot bs used := by
  have inside : (p.setUsed slot used).slotStart slot + bs.length
      ≤ (p.setUsed slot used).image.size := by
    rw [slotStart, (p.sameFrame_setUsed ..).size, (p.sameFrame_setUsed ..).schema, length]
    exact Layout.slotStart_add_le there
  have start : (p.setUsed slot used).slotStart slot = p.slotStart slot := by
    rw [slotStart, slotStart, (p.sameFrame_setUsed ..).size, (p.sameFrame_setUsed ..).schema]
  have header : slot / 8 < p.slotStart slot := Layout.div_lt_slotStart there slot
  refine SameFrame.eq_of_image ⟨⟨rfl, rfl, ?_⟩, rfl⟩ (Image.ext_byte ?_ fun i _ => ?_)
  · rw [(sameFrame_setSlot ..).size, (sameFrame_setUsed ..).size, sameFrame_rewrite.size]
  · rw [(sameFrame_setSlot ..).size, (sameFrame_setUsed ..).size, sameFrame_rewrite.size]
  · have written : ((p.setUsed slot used).setSlot slot bs).image.byte i
        = if (p.setUsed slot used).slotStart slot ≤ i ∧
              i < (p.setUsed slot used).slotStart slot + bs.length then
            (bs[i - (p.setUsed slot used).slotStart slot]?).getD 0
          else (p.setUsed slot used).image.byte i := Image.byte_write inside i
    rw [written, start, image_setUsed, Image.byte_modify _ (Layout.div_lt_page there),
      byte_rewrite there length]
    by_cases here : slot / 8 = i
    · rw [if_pos here, if_pos here, if_neg (by omega)]
    · rw [if_neg here, if_neg here]

/-- The bit of every slot that there could be in the header. -/
theorem testBit_rewrite (there : slot < p.slotCount) (length : bs.length = p.schema.rowSize)
    {other : Nat} (inside : other / 8 < Layout.headerSize p.slotCount) :
    Layout.testBit ((p.rewrite slot bs used).image.byte (other / 8)) other
      = if other = slot then used else Layout.testBit (p.image.byte (other / 8)) other := by
  have header : Layout.headerSize p.slotCount ≤ p.slotStart slot := Nat.le_add_right ..
  rw [byte_rewrite there length]
  by_cases same : slot / 8 = other / 8
  · have bits : slot % 8 = other % 8 ↔ other = slot := by omega
    rw [if_pos same]
    cases used with
    | true =>
      rw [if_pos rfl, Layout.testBit_setMask]
      by_cases eq : other = slot <;> simp [bits, eq]
    | false =>
      rw [if_neg Bool.false_ne_true, Layout.testBit_clearMask]
      by_cases eq : other = slot <;> simp [bits, eq]
  · rw [if_neg same, if_neg (by omega), if_neg fun eq => same (by rw [eq])]

theorem isUsed_rewrite (there : slot < p.slotCount) (other : Nat) :
    (p.rewrite slot bs used).isUsed other = if other = slot then used else p.isUsed other := by
  have there' : slot < (p.setSlot slot bs).slotCount := (p.sameFrame_setSlot ..).slotCount ▸ there
  rw [rewrite, isUsed_setUsed _ there', isUsed_setSlot]

theorem slotBytes_rewrite (there : slot < p.slotCount) (length : bs.length = p.schema.rowSize)
    (other : Nat) :
    (p.rewrite slot bs used).slotBytes other = if other = slot then bs else p.slotBytes other := by
  have there' : slot < (p.setSlot slot bs).slotCount := (p.sameFrame_setSlot ..).slotCount ▸ there
  rw [rewrite, slotBytes_setUsed _ there', slotBytes_setSlot there length]

/-- **A row that conforms is stored** by rewriting the first free slot with its
bytes. -/
theorem exists_rewrite_of_insert {row stored : Tuple} (conforms : row.Conforms)
    (h : p.insert row = (.ok stored, q)) :
    ∃ slot bs, slot < p.slotCount ∧ bs.length = p.schema.rowSize ∧
      Tuple.Canonical p.schema.columns bs ∧ q = p.rewrite slot bs true := by
  unfold insert at h
  split at h
  · rename_i layout
    obtain ⟨bs, size, canonical, fills⟩ := conforms.canonical layout
    cases free : p.firstFree? with
    | none => rw [free] at h; cases h
    | some slot =>
      have there := (firstFree?_eq_some free).1
      rw [free] at h
      dsimp only at h
      rw [fills _ (length_slotBytes there)] at h
      exact ⟨slot, bs, there, size, canonical, (Prod.ext_iff.1 h).2.symm⟩
  · cases h

/-- **A row is deleted** by rewriting its slot with zeros. -/
theorem exists_rewrite_of_delete {row : Tuple} (h : p.delete row = .ok q) :
    ∃ slot < p.slotCount, q = p.rewrite slot (List.replicate p.schema.rowSize 0) false := by
  obtain ⟨record, place, page, there, used, -, -⟩ := delete_ok h
  have here : ¬record.page ≠ p.id := not_not.2 page
  rw [isSome_rowAt] at used
  rw [delete, place] at h
  dsimp only at h
  rw [if_neg here, if_neg (Nat.not_le.2 there), if_pos used,
    setSlot_setUsed there List.length_replicate] at h
  exact ⟨_, there, (Except.ok.inj h).symm⟩

/-! ## Canonical pages -/

/-- **A page whose bytes are those of its rows**, and otherwise zero. -/
structure Canonical (p : Page) : Prop where
  /-- A bit of the header that belongs to no slot in use is zero, -/
  bits : ∀ slot, slot / 8 < Layout.headerSize p.slotCount → p.isUsed slot = false →
    Layout.testBit (p.image.byte (slot / 8)) slot = false
  /-- and so is a byte behind the header that lies in no slot in use. -/
  bytes : ∀ i, Layout.headerSize p.slotCount ≤ i →
    (∀ slot, p.isUsed slot = true →
      i < p.slotStart slot ∨ p.slotStart slot + p.schema.rowSize ≤ i) → p.image.byte i = 0
  /-- A slot in use has the bytes that its row is written as. -/
  rows : ∀ slot, p.isUsed slot = true → Tuple.Canonical p.schema.columns (p.slotBytes slot)

/-- **A page of zeros is canonical.** -/
theorem canonical_of_zeros {size : Nat} (zeros : p.image = Image.zeros size) : p.Canonical := by
  have byte (i : Nat) : p.image.byte i = 0 := zeros ▸ Image.byte_zeros size i
  have bit (slot : Nat) : Layout.testBit (p.image.byte (slot / 8)) slot = false := by
    rw [byte]
    exact BitVec.getLsbD_zero
  refine ⟨fun slot _ _ => bit slot, fun i _ _ => byte i, fun slot used => ?_⟩
  rw [isUsed_eq_testBit (lt_slotCount_of_isUsed used), bit] at used
  cases used

namespace Canonical

/-- **It stays canonical when a slot is rewritten**, with the bytes of a row or, if it
goes out of use, with zeros. -/
theorem rewrite (canonical : p.Canonical) (there : slot < p.slotCount)
    (length : bs.length = p.schema.rowSize)
    (row : used = true → Tuple.Canonical p.schema.columns bs)
    (free : used = false → ∀ b ∈ bs, b = 0) : (p.rewrite slot bs used).Canonical where
  bits other inside unused := by
    rw [sameFrame_rewrite.slotCount] at inside
    rw [isUsed_rewrite there] at unused
    rw [testBit_rewrite there length inside]
    split
    · rename_i here
      rwa [if_pos here] at unused
    · rename_i other
      rw [if_neg other] at unused
      exact canonical.bits _ inside unused
  bytes i behind outside := by
    rw [sameFrame_rewrite.slotCount] at behind
    have header : slot / 8 < Layout.headerSize p.slotCount := by
      rw [Layout.headerSize]
      omega
    have start (other : Nat) : (p.rewrite slot bs used).slotStart other = p.slotStart other := by
      rw [slotStart, slotStart, sameFrame_rewrite.size, sameFrame_rewrite.schema]
    rw [byte_rewrite there length, if_neg (by omega)]
    simp only [isUsed_rewrite there, start, sameFrame_rewrite.schema] at outside
    split
    · rename_i within
      -- the slot is not in use, or the byte would lie in it
      cases used with
      | true =>
        have apart := outside slot (if_pos rfl)
        omega
      | false =>
        have inside : i - p.slotStart slot < bs.length := by omega
        rw [List.getElem?_eq_getElem inside]
        exact free rfl _ (List.getElem_mem inside)
    · rename_i beyond
      refine canonical.bytes i behind fun other inUse => ?_
      by_cases same : other = slot
      · subst same
        omega
      · exact outside other ((if_neg same).trans inUse)
  rows other inUse := by
    rw [isUsed_rewrite there] at inUse
    rw [slotBytes_rewrite there length, sameFrame_rewrite.schema]
    split
    · rename_i here
      rw [if_pos here] at inUse
      exact row inUse
    · rename_i other
      rw [if_neg other] at inUse
      exact canonical.rows _ inUse

/-- **Whatever is done to it**, if the rows that are stored conform. -/
theorem perform (canonical : p.Canonical) {c : PageCall} (conforms : c.Conforms) :
    (p.perform c).2.Canonical := by
  cases c with
  | insert row =>
    cases h : p.insert row with | mk outcome q =>
    have after : (p.perform (.insert row)).2 = q := (Prod.ext_iff.1 h).2
    rw [after]
    cases outcome with
    | error cause => exact (eq_of_insert_error conforms h).symm ▸ canonical
    | ok stored =>
      obtain ⟨slot, bs, there, length, row, rfl⟩ := exists_rewrite_of_insert conforms h
      exact canonical.rewrite there length (fun _ => row) fun free => by cases free
  | delete row =>
    rw [Page.perform]
    cases h : p.delete row with
    | error cause => exact canonical
    | ok q =>
      obtain ⟨slot, there, rfl⟩ := exists_rewrite_of_delete h
      exact canonical.rewrite there List.length_replicate (fun used => by cases used)
        fun _ _ zero => List.eq_of_mem_replicate zero
  | read slot => exact canonical
  | list => exact canonical
  | tally => exact canonical
  | rebuild =>
    rw [Page.perform, ofImage, dif_neg (Nat.ne_of_gt p.slots_pos), dif_pos p.slots_le]
    exact ⟨canonical.bits, canonical.bytes, canonical.rows⟩

/-- **And however often.** -/
theorem run (canonical : p.Canonical) {calls : List PageCall} (conforms : ∀ c ∈ calls, c.Conforms) :
    (p.run calls).2.Canonical := by
  induction calls generalizing p with
  | nil => exact canonical
  | cons c calls ih =>
    exact ih (canonical.perform (conforms c List.mem_cons_self))
      fun c' later => conforms c' (List.mem_cons_of_mem c later)

/-- **Canonical pages that hold the same rows have the same bytes.** -/
theorem image_congr (canonical : p.Canonical) (canonical' : q.Canonical)
    (size : q.image.size = p.image.size) (schema : q.schema = p.schema)
    (rows : ∀ slot, q.rowAt slot = p.rowAt slot) : q.image = p.image := by
  have count : q.slotCount = p.slotCount := by rw [slotCount, slotCount, size, schema]
  have start (slot : Nat) : q.slotStart slot = p.slotStart slot := by
    rw [slotStart, slotStart, size, schema]
  have used (slot : Nat) : q.isUsed slot = p.isUsed slot := by
    rw [← isSome_rowAt, rows, isSome_rowAt]
  refine Image.ext_byte size fun i _ => ?_
  by_cases header : i < Layout.headerSize p.slotCount
  · -- bit by bit, each of which is that of some slot
    have bit (slot : Nat) (inside : slot / 8 < Layout.headerSize p.slotCount) :
        Layout.testBit (q.image.byte (slot / 8)) slot
          = Layout.testBit (p.image.byte (slot / 8)) slot := by
      cases inUse : p.isUsed slot with
      | true =>
        have there := lt_slotCount_of_isUsed inUse
        rw [← isUsed_eq_testBit there, ← isUsed_eq_testBit (count ▸ there), used]
      | false =>
        rw [canonical.bits slot inside inUse,
          canonical'.bits slot (count ▸ inside) ((used slot).trans inUse)]
    refine UInt8.eq_of_toBitVec_eq (BitVec.eq_of_getLsbD_eq fun j small => ?_)
    have same := bit (i * 8 + j) (by omega)
    rwa [Layout.testBit, Layout.testBit, (by omega : (i * 8 + j) / 8 = i),
      (by omega : (i * 8 + j) % 8 = j)] at same
  · by_cases within : ∃ slot, p.isUsed slot = true ∧ p.slotStart slot ≤ i ∧
        i < p.slotStart slot + p.schema.rowSize
    · obtain ⟨slot, inUse, first, last⟩ := within
      have there := lt_slotCount_of_isUsed inUse
      have read := rows slot
      rw [rowAt_eq, rowAt_eq, used, if_pos inUse, if_pos inUse, schema] at read
      have canonical'' := canonical'.rows slot ((used slot).trans inUse)
      rw [schema] at canonical''
      have bytes : q.slotBytes slot = p.slotBytes slot :=
        Tuple.eq_of_readColumns (schema ▸ length_slotBytes (count ▸ there)) (length_slotBytes there)
          canonical'' (canonical.rows slot inUse) (Option.some.inj read)
      rw [slotBytes, slotBytes, start, schema] at bytes
      rw [Image.byte_eq_slice first last, Image.byte_eq_slice first last, bytes]
    · have outside (slot : Nat) (inUse : p.isUsed slot = true) :
          i < p.slotStart slot ∨ p.slotStart slot + p.schema.rowSize ≤ i := by
        by_contra inside
        exact within ⟨slot, inUse, by omega, by omega⟩
      rw [canonical.bytes i (Nat.not_lt.1 header) outside]
      refine canonical'.bytes i (count ▸ Nat.not_lt.1 header) fun slot inUse => ?_
      rw [start, schema]
      exact outside slot ((used slot).symm.trans inUse)

/-- **A row that was just stored can be deleted**, and then the page is what it was. -/
theorem delete_of_insert (canonical : p.Canonical) {row stored : Tuple} (conforms : row.Conforms)
    (h : p.insert row = (.ok stored, q)) : q.delete stored = .ok p := by
  obtain ⟨slot, there, free, rfl, same, rows⟩ := insert_ok h
  have used : q.isUsed slot.toNat = true := by
    rw [← isSome_rowAt, rows, if_pos rfl]
    rfl
  have deleted : ∃ r, q.delete (row.located (some ⟨p.id, slot⟩)) = .ok r := by
    rw [delete, Tuple.located]
    dsimp only
    rw [if_neg (not_not.2 same.id.symm), same.slotCount, if_neg (Nat.not_le.2 there), if_pos used]
    exact ⟨_, rfl⟩
  obtain ⟨r, deleted⟩ := deleted
  obtain ⟨record, place, -, -, -, same', rows'⟩ := delete_ok deleted
  obtain rfl : record = ⟨p.id, slot⟩ := (Option.some.inj place).symm
  have again : r.Canonical := by
    have inserted : q.Canonical := by
      have after := canonical.perform (c := .insert row) conforms
      rwa [Page.perform, h] at after
    have after := inserted.perform (c := .delete (row.located (some ⟨p.id, slot⟩))) trivial
    rwa [Page.perform, deleted] at after
  have frame := same.trans same'
  rw [deleted, frame.eq_of_image (canonical.image_congr again frame.size frame.schema fun s => ?_)]
  rw [rows', rows]
  split
  · rename_i here
    rw [here, free]
  · rfl

end Canonical

/-- However much is done to a page, it is another state of the same page. -/
theorem alike_run (p : Page) (calls : List PageCall) : p.Alike (p.run calls).2 := by
  induction calls generalizing p with
  | nil => exact .refl p
  | cons c calls ih => exact (p.alike_perform c).trans (ih (p.perform c).2)

/-- **A page has no memory.** Whatever was done to a page that was made of zeros, as
long as the rows that were stored conform: its bytes are those of its rows, and zero
elsewhere. Another page that was made of as many zeros for the same columns, and
holds the same rows now, has the same bytes, whatever was done to it. And if a row is
stored and deleted again, the page is what it was. -/
theorem run_canonical {id : PageId} {schema : Schema} {size : Nat} {blank : Page}
    (made : ofImage id schema (Image.zeros size) = .ok blank) {calls : List PageCall}
    (conforms : ∀ c ∈ calls, c.Conforms) :
    (blank.run calls).2.Canonical ∧
    (∀ id' blank' calls', ofImage id' schema (Image.zeros size) = .ok blank' →
      (∀ c ∈ calls', c.Conforms) →
      (∀ slot, (blank'.run calls').2.rowAt slot = (blank.run calls).2.rowAt slot) →
      (blank'.run calls').2.image = (blank.run calls).2.image) ∧
    ∀ row stored q, row.Conforms → (blank.run calls).2.insert row = (.ok stored, q) →
      q.delete stored = .ok (blank.run calls).2 := by
  obtain ⟨zeros, columns⟩ := ofImage_ok made
  have canonical := (canonical_of_zeros zeros).run conforms
  refine ⟨canonical, fun id' blank' calls' made' conforms' rows => ?_,
    fun row stored q fits inserted => canonical.delete_of_insert fits inserted⟩
  obtain ⟨zeros', columns'⟩ := ofImage_ok made'
  have kept := blank.alike_run calls
  have kept' := blank'.alike_run calls'
  refine canonical.image_congr ((canonical_of_zeros zeros').run conforms') ?_ ?_ rows
  · rw [kept.size, kept'.size, zeros, zeros']
  · rw [kept.schema, kept'.schema, columns, columns']

/-- A page with room for three large integers. In its first slot, there is a row in
between that is gone again, and the numbers come as small integers or as large ones. -/
theorem run_canonical_three :
    let schema : Schema := ⟨[⟨"n", .bigint⟩]⟩
    let row (v : Value) : Tuple := ⟨schema, [v], none, rfl⟩
    let calls : List PageCall := [.insert (row (.int 9)), .insert (row (.big 3)),
      .delete ((row (.int 9)).located (some ⟨⟨⟨1⟩, 0⟩, 0⟩)), .insert (row (.int 5))]
    let calls' : List PageCall := [.insert (row (.big 5)), .insert (row (.int 3))]
    ∃ p q stored, ofImage ⟨⟨1⟩, 0⟩ schema (Image.zeros 25) = .ok p ∧
      (p.run calls').2.image = (p.run calls).2.image ∧
      (p.run calls).2.insert (row (.int 7)) = (.ok stored, q) ∧
      q.delete stored = .ok (p.run calls).2 := by
  intro schema row calls calls'
  let blank : Page := ⟨⟨⟨1⟩, 0⟩, schema, Image.zeros 25, none, by decide, by decide⟩
  have made : ofImage ⟨⟨1⟩, 0⟩ schema (Image.zeros 25) = .ok blank := by
    rw [ofImage, dif_neg (by decide), dif_pos (by decide)]
  have seven : (row (.int 7)).Conforms := rfl
  have conforms : ∀ c ∈ calls, c.Conforms := by
    simp only [calls, List.forall_mem_cons]
    exact ⟨rfl, rfl, trivial, rfl, List.forall_mem_nil _⟩
  have conforms' : ∀ c ∈ calls', c.Conforms := by
    simp only [calls', List.forall_mem_cons]
    exact ⟨rfl, rfl, List.forall_mem_nil _⟩
  obtain ⟨-, same, back⟩ := run_canonical made conforms
  have inserted : (blank.run calls).2.insert (row (.int 7))
      = (.ok ((row (.int 7)).located (some ⟨⟨⟨1⟩, 0⟩, 2⟩)),
        ((blank.run calls).2.insert (row (.int 7))).2) := Prod.ext (by decide +kernel) rfl
  refine ⟨blank, _, _, made, same _ blank calls' made conforms' fun slot => ?_, inserted,
    back _ _ _ seven inserted⟩
  by_cases there : slot < 3
  · revert slot
    decide +kernel
  · have unused (calls : List PageCall) : (blank.run calls).2.rowAt slot = none := by
      have count : (blank.run calls).2.slotCount = 3 :=
        (blank.alike_run calls).slotCount.trans (by decide)
      rw [rowAt_eq, isUsed, count, decide_eq_false there]
      rfl
    rw [unused, unused]

end Page

end Tablespace
