import Tablespace.Proofs.Codec.RoundTrip
import Tablespace.Proofs.Page.Rows

/-!
# What a refused row leaves behind

A row is written column by column into the slot that it is to take, and writing
stops at the first value that does not fit its column (`Tuple.StopsAt`). The row
is refused then, and its slot stays out of use. But the columns before have been
written, and nobody takes them back: they are the **remains** of the row
(`Page.Spills`). No row is read differently for them, no other slot has them,
and the next row that is stored goes over them. But the bytes of the page are
not what they were, although nobody has marked it as changed.

`Page.insert_refused` says which bytes these are, and that there are none just
if the slot began with them before. A row whose values fit leaves nothing when
it is refused; only a row that was read from bytes can have values that do not.
-/

namespace Tablespace

namespace Value

/-- **The fault of a value that does not fit** a column. -/
def misfit : Value → DataType → Fault
  | str s, .char room => .valueTooLong (Text.bytes s).length room.toNat
  | v, type => .mismatch (.cannotStore v type)

/-- A value that does not fit is not written. -/
theorem encode_of_unfit {v : Value} {type : DataType} (unfit : v.fits type = false) :
    v.encode type = .error (v.misfit type) := by
  cases v with
  | bool b =>
    cases type with
    | boolean => cases unfit
    | integer | bigint | char _ => rfl
  | int n =>
    cases type with
    | integer | bigint => cases unfit
    | boolean | char _ => rfl
  | big n =>
    cases type with
    | bigint => cases unfit
    | boolean | integer | char _ => rfl
  | str s =>
    cases type with
    | boolean | integer | bigint => rfl
    | char room =>
      rw [encode, if_neg (of_decide_eq_false unfit)]
      rfl

end Value

namespace Tuple

/-- **Where the writing of a row stops**: at the first value that does not fit
its column. -/
structure StopsAt (row : Tuple) (n : Nat) (column : Column) (value : Value) : Prop where
  here : (row.schema.columns.zip row.values)[n]? = some (column, value)
  unfit : value.fits column.type = false
  before : ∀ cv ∈ (row.schema.columns.zip row.values).take n, cv.2.fits cv.1.type = true

variable {row : Tuple} {n : Nat} {column : Column} {value : Value}

/-- A row conforms if all its values fit. -/
theorem conforms_of_fits
    (fits : ∀ cv ∈ row.schema.columns.zip row.values, cv.2.fits cv.1.type = true) :
    row.Conforms := by
  have none : (row.schema.columns.zip row.values).find? (fun cv => !cv.2.fits cv.1.type) = none :=
    List.find?_eq_none.2 fun cv there => by simp [fits cv there]
  rw [Conforms, ofValues, dif_pos row.length_values, none]
  rfl

/-- **A row that does not conform stops somewhere.** -/
theorem exists_stopsAt (unfit : ¬row.Conforms) : ∃ n column value, row.StopsAt n column value := by
  cases found : (row.schema.columns.zip row.values).find? fun cv => !cv.2.fits cv.1.type with
  | none =>
    refine absurd (conforms_of_fits fun cv there => ?_) unfit
    simpa using List.find?_eq_none.1 found cv there
  | some cv =>
    obtain ⟨bad, n, there, eq, before⟩ := List.find?_eq_some_iff_getElem.1 found
    refine ⟨n, cv.1, cv.2, ?_, by simpa using bad, ?_⟩
    · rw [List.getElem?_eq_getElem there, eq]
    · intro other early
      obtain ⟨i, short, rfl⟩ := List.mem_iff_getElem.1 early
      rw [List.length_take] at short
      have fits := before i (by omega)
      rw [List.getElem_take]
      simpa using fits

/-- Columns are written up to the first value that does not fit, those before it
in full. -/
theorem encodeColumns_of_unfit {columns : List Column} {values : List Value}
    (here : (columns.zip values)[n]? = some (column, value))
    (unfit : value.fits column.type = false)
    (before : ∀ cv ∈ (columns.zip values).take n, cv.2.fits cv.1.type = true) :
    ∃ bs, encodeColumns (columns.take n) (values.take n) = (bs, none)
      ∧ encodeColumns columns values = (bs, some (value.misfit column.type)) := by
  induction n generalizing columns values with
  | zero =>
    refine ⟨[], rfl, ?_⟩
    cases columns with
    | nil => cases here
    | cons c cs =>
      cases values with
      | nil => cases here
      | cons v vs =>
        cases here
        rw [encodeColumns, Value.encode_of_unfit unfit]
  | succ n ih =>
    cases columns with
    | nil => cases here
    | cons c cs =>
      cases values with
      | nil => cases here
      | cons v vs =>
        obtain ⟨first, written⟩ := Value.encode_of_fits (before (c, v) List.mem_cons_self)
        have here' : (cs.zip vs)[n]? = some (column, value) := here
        obtain ⟨bs, front, all⟩ :=
          ih here' fun cv there => before cv (List.mem_cons_of_mem _ there)
        refine ⟨first ++ bs, ?_, ?_⟩
        · rw [List.take_succ_cons, List.take_succ_cons, encodeColumns, written, front]
        · rw [encodeColumns, written, all]

end Tuple

namespace Page

variable {p q : Page} {row : Tuple} {slot : Nat} {bs : List UInt8}

/-- **What a row leaves in a slot**: the row has the layout of the page, the
slot is the first that is free, and the bytes are those of the columns before
the first value that does not fit. -/
structure Spills (p : Page) (row : Tuple) (slot : Nat) (bs : List UInt8) : Prop where
  layout : row.schema.sameLayout p.schema = true
  free : p.firstFree? = some slot
  stops : ∃ n column value, row.StopsAt n column value ∧
    Tuple.encodeColumns (row.schema.columns.take n) (row.values.take n) = (bs, none)

/-! ## Bytes of a slot -/

/-- Two states of a page that have the same bytes are the same. -/
theorem SameFrame.eq_of_image (same : p.SameFrame q) (image : q.image = p.image) : q = p := by
  obtain ⟨⟨id, schema, -⟩, dirtier⟩ := same
  cases p
  cases q
  cases id
  cases schema
  cases image
  cases dirtier
  rfl

/-- A byte of the page when a slot is written over. -/
theorem getElem?_image_setSlot {bytes : List UInt8} (i : Nat) :
    (p.setSlot slot bytes).image[i]?
      = if p.slotStart slot ≤ i ∧ i < p.slotStart slot + bytes.length ∧ i < p.image.size
        then bytes[i - p.slotStart slot]? else p.image[i]? :=
  Image.getElem?_write

/-- Writing the bytes that a slot has changes nothing. -/
theorem setSlot_slotBytes (p : Page) (slot : Nat) : p.setSlot slot (p.slotBytes slot) = p := by
  refine (p.sameFrame_setSlot slot _).eq_of_image (Array.ext_getElem? fun i => ?_)
  rw [getElem?_image_setSlot]
  split
  · rename_i within
    have length : (p.slotBytes slot).length ≤ p.schema.rowSize := by
      rw [slotBytes, Image.slice, Array.length_toList, Array.size_extract]
      omega
    rw [slotBytes, Image.getElem?_slice, if_pos (by omega), Nat.add_sub_cancel' within.1]
  · rfl

/-- What is written into a slot goes over what was written there before. -/
theorem setSlot_setSlot {first second : List UInt8} (length : first.length = second.length) :
    (p.setSlot slot first).setSlot slot second = p.setSlot slot second := by
  have size : (p.setSlot slot first).image.size = p.image.size := (p.sameFrame_setSlot ..).size
  have start : (p.setSlot slot first).slotStart slot = p.slotStart slot := by
    rw [slotStart, slotStart, size, (p.sameFrame_setSlot ..).schema]
  refine SameFrame.eq_of_image
    ⟨⟨rfl, rfl, by simp only [(sameFrame_setSlot ..).size]⟩, rfl⟩ (Array.ext_getElem? fun i => ?_)
  rw [getElem?_image_setSlot, getElem?_image_setSlot, getElem?_image_setSlot, start, size, length]
  split <;> rfl

/-! ## The remains of a row -/

namespace Spills

variable (spills : p.Spills row slot bs)

include spills

theorem lt_slotCount : slot < p.slotCount :=
  (firstFree?_eq_some spills.free).1

/-- They are what has been written when writing stops. -/
theorem written : ∃ n column value, row.StopsAt n column value ∧
    Tuple.encodeColumns row.schema.columns row.values
      = (bs, some (value.misfit column.type)) := by
  obtain ⟨n, column, value, stops, front⟩ := spills.stops
  obtain ⟨all, before, whole⟩ := Tuple.encodeColumns_of_unfit stops.here stops.unfit stops.before
  obtain rfl : all = bs := (Prod.ext_iff.1 (before.symm.trans front)).1
  exact ⟨n, column, value, stops, whole⟩

/-- There are no more of them than the slot has bytes. -/
theorem length_le : bs.length ≤ (p.slotBytes slot).length := by
  obtain ⟨n, column, value, -, whole⟩ := spills.written
  have fits := Tuple.length_encodeColumns_le row.schema.columns row.values
  rw [whole] at fits
  rw [length_slotBytes spills.lt_slotCount, ← Schema.rowSize_congr spills.layout]
  exact fits

/-- With what the slot has behind them, they are as many. -/
theorem length_append :
    (bs ++ (p.slotBytes slot).drop bs.length).length = (p.slotBytes slot).length := by
  have le := spills.length_le
  rw [List.length_append, List.length_drop]
  omega

/-- **A row that stops** is refused for the value it stops at, and has been
written up to it. -/
theorem insert : ∃ n column value, row.StopsAt n column value ∧
    p.insert row = (.error (value.misfit column.type),
      p.setSlot slot (bs ++ (p.slotBytes slot).drop bs.length)) := by
  obtain ⟨n, column, value, stops, whole⟩ := spills.written
  have size : (p.slotBytes slot).length = row.schema.rowSize := by
    rw [length_slotBytes spills.lt_slotCount, Schema.rowSize_congr spills.layout]
  refine ⟨n, column, value, stops, ?_⟩
  rw [Page.insert, if_pos spills.layout, spills.free]
  dsimp only
  rw [Tuple.overwrite, if_pos size, whole]

/-- A byte that is changed by them is one that they are written over. -/
theorem within_of_ne {i : Nat}
    (changed : (p.setSlot slot (bs ++ (p.slotBytes slot).drop bs.length)).image[i]?
      ≠ p.image[i]?) :
    p.slotStart slot ≤ i ∧ i < p.slotStart slot + bs.length := by
  by_contra outside
  refine changed ?_
  -- behind them the slot was written over with the bytes that it had
  have self : (p.setSlot slot (p.slotBytes slot)).image[i]? = p.image[i]? := by
    rw [setSlot_slotBytes]
  rw [getElem?_image_setSlot] at self ⊢
  rw [spills.length_append]
  split at self
  · rename_i within
    rw [if_pos within, ← self, List.getElem?_append_right (by omega), List.getElem?_drop,
      Nat.add_sub_cancel' (by omega)]
  · rename_i beyond
    rw [if_neg beyond]

/-- **The page is what it was** just if the slot began with them before. -/
theorem setSlot_eq_self_iff :
    p.setSlot slot (bs ++ (p.slotBytes slot).drop bs.length) = p
      ↔ bs <+: p.slotBytes slot := by
  constructor
  · intro same
    have length := spills.length_append
    rw [length_slotBytes spills.lt_slotCount] at length
    have stands := slotBytes_setSlot spills.lt_slotCount length slot
    rw [same, if_pos rfl] at stands
    exact ⟨_, stands.symm⟩
  · intro begins
    rw [List.prefix_iff_eq_append.1 begins]
    exact p.setSlot_slotBytes slot

end Spills

/-- **An insertion that fails** leaves remains or leaves the page as it was. -/
theorem spills_or_eq_of_insert_error {cause : Fault} (h : p.insert row = (.error cause, q)) :
    (∃ slot bs, p.Spills row slot bs) ∨ q = p := by
  by_cases conforms : row.Conforms
  · exact .inr (eq_of_insert_error conforms h)
  · obtain ⟨n, column, value, stops⟩ := Tuple.exists_stopsAt conforms
    unfold Page.insert at h
    split at h
    · rename_i layout
      cases free : p.firstFree? with
      | none => rw [free] at h; cases h; exact .inr rfl
      | some slot =>
        obtain ⟨bs, front, -⟩ :=
          Tuple.encodeColumns_of_unfit stops.here stops.unfit stops.before
        exact .inl ⟨slot, bs, layout, free, n, column, value, stops, front⟩
    · cases h
      exact .inr rfl

/-- **The next row that is stored** goes over what a slot held that is not in
use. -/
theorem insert_setSlot {other : Tuple} (conforms : other.Conforms)
    (layout : other.schema.sameLayout p.schema = true) (free : p.firstFree? = some slot)
    {bytes : List UInt8} (length : bytes.length = p.schema.rowSize) :
    (p.setSlot slot bytes).insert other = p.insert other := by
  obtain ⟨there, unused⟩ := firstFree?_eq_some free
  obtain ⟨written, -, -, size, written_over⟩ := conforms.encode
  have same : p.SameRows (p.setSlot slot bytes) := by
    refine ⟨p.sameFrame_setSlot .., fun s => ?_⟩
    rw [rowAt_eq, rowAt_eq, isUsed_setSlot, slotBytes_setSlot there length]
    by_cases eq : s = slot
    · rw [eq, unused, if_neg Bool.false_ne_true, if_neg Bool.false_ne_true]
    · rw [if_neg eq]
      rfl
  have room : (p.slotBytes slot).length = other.schema.rowSize := by
    rw [length_slotBytes there, Schema.rowSize_congr layout]
  have room' : ((p.setSlot slot bytes).slotBytes slot).length = other.schema.rowSize := by
    rw [slotBytes_setSlot there length, if_pos rfl, length, Schema.rowSize_congr layout]
  have layout' : other.schema.sameLayout (p.setSlot slot bytes).schema = true := layout
  have free' : (p.setSlot slot bytes).firstFree? = some slot := same.firstFree?.trans free
  rw [Page.insert, if_pos layout', free', Page.insert, if_pos layout, free]
  dsimp only
  rw [written_over _ room, written_over _ room',
    setSlot_setSlot (by rw [length, size, Schema.rowSize_congr layout]), same.id]

/-- **What a refused row leaves behind.** The page holds the same rows, in the
same slots, and counts as changed by the same transaction. The first free slot
begins with the remains of the row, if it leaves any, and no other byte is
changed; so the page is what it was just if the slot began with them before.
A row whose values fit leaves none. The next row that is stored is stored as if
there were none. -/
theorem insert_refused {cause : Fault} (h : p.insert row = (.error cause, q)) :
    p.SameRows q ∧ q.usedSlots = p.usedSlots ∧
    (∀ slot bs, p.Spills row slot bs →
      q.slotBytes slot = bs ++ (p.slotBytes slot).drop bs.length) ∧
    (∀ i, q.image[i]? ≠ p.image[i]? → ∃ slot bs, p.Spills row slot bs ∧
      p.slotStart slot ≤ i ∧ i < p.slotStart slot + bs.length) ∧
    (q = p ↔ ∀ slot bs, p.Spills row slot bs → bs <+: p.slotBytes slot) ∧
    (row.Conforms → q = p) ∧
    ∀ other : Tuple, other.Conforms → other.schema.sameLayout p.schema = true →
      q.insert other = p.insert other := by
  have same : p.SameRows q := ⟨(insert_error h).1, (insert_error h).2⟩
  have left : ∀ slot bs, p.Spills row slot bs →
      q = p.setSlot slot (bs ++ (p.slotBytes slot).drop bs.length) := by
    intro slot bs spills
    obtain ⟨n, column, value, stops, outcome⟩ := spills.insert
    exact (Prod.ext_iff.1 (h.symm.trans outcome)).2
  have length : ∀ slot bs, p.Spills row slot bs →
      (bs ++ (p.slotBytes slot).drop bs.length).length = p.schema.rowSize := by
    intro slot bs spills
    rw [spills.length_append, length_slotBytes spills.lt_slotCount]
  refine ⟨same, same.usedSlots, ?_, ?_, ?_, fun conforms => eq_of_insert_error conforms h, ?_⟩
  · intro slot bs spills
    rw [left slot bs spills,
      slotBytes_setSlot spills.lt_slotCount (length slot bs spills), if_pos rfl]
  · intro i changed
    obtain ⟨slot, bs, spills⟩ | rfl := spills_or_eq_of_insert_error h
    · rw [left slot bs spills] at changed
      exact ⟨slot, bs, spills, spills.within_of_ne changed⟩
    · exact absurd rfl changed
  · constructor
    · intro unchanged slot bs spills
      rw [left slot bs spills] at unchanged
      exact spills.setSlot_eq_self_iff.1 unchanged
    · intro begins
      obtain ⟨slot, bs, spills⟩ | rfl := spills_or_eq_of_insert_error h
      · rw [left slot bs spills]
        exact spills.setSlot_eq_self_iff.2 (begins slot bs spills)
      · rfl
  · intro other conforms layout
    obtain ⟨slot, bs, spills⟩ | rfl := spills_or_eq_of_insert_error h
    · rw [left slot bs spills]
      exact insert_setSlot conforms layout spills.free (length slot bs spills)
    · rfl

/-- A page without rows, with room for two rows of a number and a letter. -/
def blank : Page where
  id := ⟨⟨1⟩, 0⟩
  schema := ⟨[⟨"number", .integer⟩, ⟨"letter", .char 1⟩]⟩
  image := Image.zeros 20
  dirtier := none
  slots_pos := by decide
  slots_le := by decide

/-- Bytes are read as a row whose letter is no text: it is replaced by one that
takes three bytes, and the row can no longer be stored. Its number stays in the
page, where there is no row. -/
theorem insert_refused_blank :
    ∃ row q, Tuple.decode blank.schema [7, 0, 0, 0, 1, 0, 0, 0, 0xFF] = .ok row ∧
      blank.insert row = (.error (.valueTooLong 3 1), q) ∧ blank.Spills row 0 [7, 0, 0, 0] ∧
      q.usedSlots = [] ∧ q.isDirty = false ∧ q.slotBytes 0 = [7, 0, 0, 0, 0, 0, 0, 0, 0] ∧
      q ≠ blank := by
  let row : Tuple := ⟨blank.schema, [.int 7, .str "\uFFFD"], none, rfl⟩
  have read : Tuple.decode blank.schema [7, 0, 0, 0, 1, 0, 0, 0, 0xFF] = .ok row := by decide +kernel
  have spills : blank.Spills row 0 [7, 0, 0, 0] :=
    ⟨rfl, rfl, 1, ⟨"letter", .char 1⟩, .str "\uFFFD", ⟨rfl, rfl, by decide⟩, rfl⟩
  have refused : blank.insert row = (.error (.valueTooLong 3 1), (blank.insert row).2) :=
    Prod.ext rfl rfl
  obtain ⟨same, used, left, -, unchanged, -⟩ := insert_refused refused
  refine ⟨row, _, read, refused, spills, used.trans (by decide), ?_, ?_, fun eq => ?_⟩
  · rw [isDirty, same.dirtier]
    rfl
  · exact (left _ _ spills).trans (by decide)
  · have begins := unchanged.1 eq _ _ spills
    revert begins
    decide

end Page

end Tablespace
