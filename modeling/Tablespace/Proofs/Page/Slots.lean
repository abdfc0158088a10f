import Tablespace.Proofs.Page.Rows

/-!
# A page is slots with rows

Apart from its bytes, a page is a number of **slots**, each of which holds a row
or none (`Slots`). What can be done to slots is said in a few lines
(`Slots.perform`): a row goes into the lowest slot that is free, a deletion
frees the slot of the row, and everything else only looks. What is done to the
bytes of a page comes to the same, whatever bytes they are
(`Page.run_refines_slots`). A header may have bits for slots that there are not,
and a slot that is not in use may have any bytes; nobody ever reads them.

The rows that are stored are to fit their columns. One that does not may be
refused when some of its columns have been written already.
-/

namespace Tablespace

/-- **A row as the columns of its layout keep it**, in a place. -/
def Tuple.kept (row : Tuple) (schema : Schema) (same : row.schema.sameLayout schema = true)
    (record : RecordId) : Tuple where
  schema := schema
  values := schema.keep row.values
  record := some record
  length_values := by
    have values : row.values.length = schema.columns.length :=
      row.length_values.trans (Schema.length_eq_of_sameLayout same)
    rw [Schema.keep, List.length_zipWith, Schema.layout, List.length_map, values, Nat.min_self]

/-- **What is done to a page.** -/
inductive PageCall where
  /-- A row is stored. -/
  | insert (row : Tuple)
  /-- A row is deleted by its place. -/
  | delete (row : Tuple)
  /-- A slot is read. -/
  | read (slot : Nat)
  /-- All rows are read. -/
  | list
  /-- The slots in use and those free are counted. -/
  | tally
  /-- The page is made anew from its bytes. -/
  | rebuild

/-- A call that stores no row but such that fits its columns. -/
def PageCall.Conforms : PageCall → Prop
  | insert row => row.Conforms
  | delete _ | read _ | list | tally | rebuild => True

/-- **What is answered.** -/
inductive PageAnswer where
  | done
  /-- The row that was stored, with its place. -/
  | stored (row : Tuple)
  /-- The row of a slot, if it holds one. -/
  | row (row : Option Tuple)
  | rows (rows : List Tuple)
  /-- The slots in use, the number of those free, and whether there is one. -/
  | tally (used : List Nat) (free : Nat) (room : Bool)
  deriving DecidableEq

/-! ## Slots -/

/-- **Slots that hold rows**, under the name and the columns of a page. -/
structure Slots where
  /-- The page. -/
  id : PageId
  /-- The columns of the rows. -/
  schema : Schema
  /-- The number of slots. -/
  count : Nat
  /-- The row in a slot, if it holds one. -/
  row : Nat → Option Tuple

namespace Slots

variable (s : Slots)

/-- The place of a slot. -/
def place (slot : Nat) : RecordId :=
  ⟨s.id, UInt16.ofNat slot⟩

/-- The slots that hold rows, in ascending order. -/
def used : List Nat :=
  (List.range s.count).filter fun slot => (s.row slot).isSome

/-- The slots that hold none, in ascending order. -/
def free : List Nat :=
  (List.range s.count).filter fun slot => (s.row slot).isNone

/-- The slots with another row in one of them, or none. -/
def put (slot : Nat) (row : Option Tuple) : Slots :=
  { s with row := fun other => if other = slot then row else s.row other }

/-- **A row goes into the lowest slot that is free**, if there is one. -/
def insert (row : Tuple) : Except Fault Tuple × Slots :=
  if same : row.schema.sameLayout s.schema = true then
    match s.free with
    | [] => (.error .pageFull, s)
    | slot :: _ =>
      (.ok (row.located (some (s.place slot))),
        s.put slot (some (row.kept s.schema same (s.place slot))))
  else (.error (.mismatch (.pageLayout s.id)), s)

/-- **The slot of a row is emptied**, if the row names one that is in use. -/
def delete (row : Tuple) : Except Fault Slots :=
  match row.record with
  | none => .error .missingRecordId
  | some record =>
    if record.page ≠ s.id then .error (.recordNotOnPage record s.id)
    else if s.count ≤ record.slot.toNat then .error (.invalidSlot record.slot.toNat)
    else if (s.row record.slot.toNat).isSome then .ok (s.put record.slot.toNat none)
    else .error (.emptySlot record.slot.toNat)

/-- **What is done to slots**, and what is answered. -/
def perform : PageCall → Except Fault PageAnswer × Slots
  | .insert row => ((s.insert row).1.map .stored, (s.insert row).2)
  | .delete row =>
    match s.delete row with
    | .ok s' => (.ok .done, s')
    | .error cause => (.error cause, s)
  | .read slot =>
    (if s.count ≤ slot then .error (.invalidSlot slot) else .ok (.row (s.row slot)), s)
  | .list => (.ok (.rows ((List.range s.count).filterMap s.row)), s)
  | .tally => (.ok (.tally s.used s.free.length (0 < s.free.length)), s)
  | .rebuild => (.ok .done, s)

/-- What is answered to calls, one after the other, and the slots after them. -/
def run (s : Slots) : List PageCall → List (Except Fault PageAnswer) × Slots
  | [] => ([], s)
  | c :: calls =>
    let r := s.perform c
    let rest := r.2.run calls
    (r.1 :: rest.1, rest.2)

/-- **Slots that are those of a page**: every row stands under the columns of the
page, and knows its place. -/
structure Sound : Prop where
  /-- Every slot has a number of 16 bits. -/
  count_le : s.count ≤ Layout.maxSlots
  /-- A row is in a slot that there is, -/
  there : ∀ slot row, s.row slot = some row → slot < s.count
  /-- under the columns of the page, -/
  schema : ∀ slot row, s.row slot = some row → row.schema = s.schema
  /-- and in its place. -/
  record : ∀ slot row, s.row slot = some row → row.record = some (s.place slot)

end Slots

/-! ## The slots of a page -/

namespace Page

variable {p q : Page} {slot : Nat} {row : Tuple}

/-- The slots of a page, read one by one. -/
def slots (p : Page) : Slots :=
  ⟨p.id, p.schema, p.slotCount, p.read?⟩

/-- **What is done to a page**, and what is answered. -/
def perform (p : Page) : PageCall → Except Fault PageAnswer × Page
  | .insert row => ((p.insert row).1.map .stored, (p.insert row).2)
  | .delete row =>
    match p.delete row with
    | .ok q => (.ok .done, q)
    | .error cause => (.error cause, p)
  | .read slot => ((p.tupleAt slot).map .row, p)
  | .list => (p.tuples.map .rows, p)
  | .tally => (.ok (.tally p.usedSlots p.freeCount p.hasFreeSlot), p)
  | .rebuild =>
    match ofImage p.id p.schema p.image with
    | .ok q => (.ok .done, q)
    | .error cause => (.error cause, p)

/-- What is answered to calls, one after the other, and the page after them. -/
def run (p : Page) : List PageCall → List (Except Fault PageAnswer) × Page
  | [] => ([], p)
  | c :: calls =>
    let r := p.perform c
    let rest := r.2.run calls
    (r.1 :: rest.1, rest.2)

/-- Whatever is done to a page, it is another state of the same page. -/
theorem alike_perform (p : Page) (c : PageCall) : p.Alike (p.perform c).2 := by
  cases c with
  | insert row => exact (p.sameFrame_insert row).toAlike
  | delete row =>
    rw [perform]
    cases deleted : p.delete row with
    | error cause => exact .refl p
    | ok q =>
      obtain ⟨-, -, -, -, -, same, -⟩ := delete_ok deleted
      exact same.toAlike
  | read slot => exact .refl p
  | list => exact .refl p
  | tally => exact .refl p
  | rebuild =>
    rw [perform, ofImage, dif_neg (Nat.ne_of_gt p.slots_pos), dif_pos p.slots_le]
    exact ⟨rfl, rfl, rfl⟩

/-! ## What is read of them -/

@[simp]
theorem slots_id (p : Page) : p.slots.id = p.id :=
  rfl

@[simp]
theorem slots_count (p : Page) : p.slots.count = p.slotCount :=
  rfl

/-- A slot holds a row exactly if it is in use. -/
theorem isSome_row_slots (p : Page) (slot : Nat) :
    (p.slots.row slot).isSome = p.isUsed slot :=
  isSome_read?

/-- **The slots of a page are sound.** -/
theorem sound_slots (p : Page) : p.slots.Sound where
  count_le := p.slots_le
  there slot row holds := by
    by_contra behind
    rw [slots_count] at behind
    have used : p.isUsed slot = true := by
      rw [← isSome_row_slots, holds, Option.isSome_some]
    rw [isUsed, decide_eq_false behind] at used
    cases used
  schema slot row holds := (read?_eq_some_iff.1 holds).2.1
  record slot row holds := (read?_eq_some_iff.1 holds).2.2

theorem usedSlots_eq (p : Page) : p.usedSlots = p.slots.used :=
  List.filter_congr fun _ _ => isSome_read?.symm

/-- The slots that hold no row are those not in use. -/
theorem free_slots (p : Page) :
    p.slots.free = (List.range p.slotCount).filter fun slot => !p.isUsed slot :=
  List.filter_congr fun slot _ => by
    rw [← isSome_read?, Option.not_isSome]
    rfl

theorem firstFree?_eq (p : Page) : p.firstFree? = p.slots.free.head? := by
  rw [free_slots, List.head?_filter, firstFree?]

theorem freeCount_eq (p : Page) : p.freeCount = p.slots.free.length := by
  rw [free_slots, freeCount, List.countP_eq_length_filter]

/-- There is room exactly if a slot is counted as free. -/
theorem hasFreeSlot_eq (p : Page) : p.hasFreeSlot = decide (0 < p.slots.free.length) := by
  rw [hasFreeSlot, firstFree?_eq]
  cases p.slots.free <;> simp

/-! ## What a change does to them -/

/-- **A change of one slot**: the others are read as before. -/
theorem slots_eq_put {now : Option Tuple} (same : p.SameFrame q)
    (rows : ∀ s, q.rowAt s = if s = slot then now.map (·.values) else p.rowAt s)
    (placed : ∀ t, now = some t → t.schema = p.schema ∧ t.record = some (p.slots.place slot)) :
    q.slots = p.slots.put slot now := by
  have read : q.read? = fun s => if s = slot then now else p.read? s := by
    funext s
    refine Option.ext fun t => ?_
    rw [read?_eq_some_iff, rows, same.schema, same.id]
    split
    · rename_i here
      subst here
      constructor
      · rintro ⟨values, schema, record⟩
        obtain ⟨u, is, eq⟩ := Option.map_eq_some_iff.1 values
        obtain ⟨uSchema, uRecord⟩ := placed u is
        rw [is]
        cases t
        cases u
        simp_all [Slots.place, Page.slots]
      · intro is
        rw [is]
        exact ⟨rfl, placed t is⟩
    · exact read?_eq_some_iff.symm
  rw [Page.slots, Page.slots, Slots.put, same.id, same.schema, same.slotCount, read]

/-- A row that fits its columns goes into the first free slot. -/
theorem insert_of_firstFree? (conforms : row.Conforms)
    (layout : row.schema.sameLayout p.schema = true) (free : p.firstFree? = some slot) :
    (p.insert row).1 = .ok (row.located (some (p.slots.place slot)))
      ∧ (p.insert row).2.slots
        = p.slots.put slot (some (row.kept p.schema layout (p.slots.place slot))) := by
  obtain ⟨there, -⟩ := firstFree?_eq_some free
  have size : (p.slotBytes slot).length = row.schema.rowSize := by
    rw [length_slotBytes there, Schema.rowSize_congr layout]
  have answer : (p.insert row).1 = .ok (row.located (some (p.slots.place slot))) := by
    rw [insert, if_pos layout, free]
    dsimp only
    rw [conforms.overwrite size]
    rfl
  refine ⟨answer, ?_⟩
  obtain ⟨place, -, -, stored, same, rows⟩ := insert_ok (Prod.ext answer rfl)
  have record : p.slots.place slot = ⟨p.id, place⟩ :=
    Option.some.inj (congrArg Tuple.record stored)
  have number : place.toNat = slot := by
    have small : slot < 65536 := Nat.lt_of_lt_of_le there p.slots_le
    rw [← (RecordId.mk.inj record).2]
    simp [Nat.mod_eq_of_lt small]
  rw [number] at rows
  refine slots_eq_put same rows fun t is => ?_
  rw [← Option.some.inj is]
  exact ⟨rfl, rfl⟩

/-- **An insertion into a page** is one into its slots. -/
theorem insert_refines_slots (conforms : row.Conforms) :
    ((p.insert row).1, (p.insert row).2.slots) = p.slots.insert row := by
  by_cases layout : row.schema.sameLayout p.schema = true
  · have same : row.schema.sameLayout p.slots.schema = true := layout
    have first := p.firstFree?_eq
    rw [Slots.insert, dif_pos same]
    cases free : p.slots.free with
    | nil =>
      rw [free, List.head?_nil] at first
      rw [insert, if_pos layout, first]
    | cons slot rest =>
      rw [free, List.head?_cons] at first
      obtain ⟨answer, slots⟩ := insert_of_firstFree? conforms layout first
      exact Prod.ext answer slots
  · have differ : ¬row.schema.sameLayout p.slots.schema = true := layout
    rw [Slots.insert, dif_neg differ, insert, if_neg layout]
    rfl

/-- **A deletion from a page** is one from its slots. -/
theorem delete_refines_slots : (p.delete row).map slots = p.slots.delete row := by
  cases outcome : p.delete row with
  | ok q =>
    obtain ⟨record, place, page, there, used, same, rows⟩ := delete_ok outcome
    rw [isSome_rowAt, ← isSome_row_slots] at used
    have here : ¬record.page ≠ p.slots.id := not_not.2 page
    have inside : ¬p.slots.count ≤ record.slot.toNat := Nat.not_le.2 there
    simp only [Slots.delete, place, if_neg here, if_neg inside, if_pos used]
    exact congrArg Except.ok (slots_eq_put same rows fun _ absurd => nomatch absurd)
  | error cause =>
    rw [← outcome]
    unfold delete at outcome ⊢
    unfold Slots.delete
    cases place : row.record with
    | none => rfl
    | some record =>
      simp only [place, slots_id, slots_count, isSome_row_slots] at outcome ⊢
      split
      · rfl
      · rename_i page
        rw [if_neg page] at outcome
        split
        · rfl
        · rename_i count
          rw [if_neg count] at outcome
          split at outcome
          · cases outcome
          · rw [if_neg ‹_›, if_neg ‹_›]
            rfl

/-! ## Calls -/

/-- **Each call does to the slots of a page what it does to slots**, and
answers the same. -/
theorem perform_refines_slots {c : PageCall} (conforms : c.Conforms) :
    ((p.perform c).1, (p.perform c).2.slots) = p.slots.perform c := by
  cases c with
  | insert row =>
    rw [Slots.perform, ← insert_refines_slots conforms]
    rfl
  | delete row =>
    rw [perform, Slots.perform, ← delete_refines_slots]
    cases p.delete row <;> rfl
  | read slot =>
    rw [perform, Slots.perform]
    by_cases there : slot < p.slotCount
    · rw [tupleAt_of_lt there, slots_count, if_neg (Nat.not_le.2 there)]
      rfl
    · rw [tupleAt, slots_count, if_pos (Nat.not_lt.1 there), if_pos (Nat.not_lt.1 there)]
      rfl
  | list =>
    rw [perform, tuples_eq]
    rfl
  | tally =>
    rw [perform, usedSlots_eq, freeCount_eq, hasFreeSlot_eq]
    rfl
  | rebuild =>
    rw [perform, ofImage, dif_neg (Nat.ne_of_gt p.slots_pos), dif_pos p.slots_le]
    rfl

/-- **What is done to the bytes of a page comes to what is done to its slots.**
Whatever the bytes are and whatever the calls, one after the other, the same is
answered, and the slots are the same at the end. -/
theorem run_refines_slots (p : Page) {calls : List PageCall} (conforms : ∀ c ∈ calls, c.Conforms) :
    p.slots.Sound ∧ (p.run calls).1 = (p.slots.run calls).1
      ∧ (p.run calls).2.slots = (p.slots.run calls).2 := by
  refine ⟨p.sound_slots, ?_⟩
  induction calls generalizing p with
  | nil => exact ⟨rfl, rfl⟩
  | cons c calls ih =>
    have first := p.perform_refines_slots (conforms c List.mem_cons_self)
    obtain ⟨answers, slots⟩ :=
      ih (p.perform c).2 fun c' later => conforms c' (List.mem_cons_of_mem c later)
    rw [run, Slots.run, ← first]
    exact ⟨by rw [answers], slots⟩

/-- A page of 17 bytes, which has room for two integers of 64 bits. Its header
has a bit too many, and there are bytes in both slots. -/
def seventeen : Page where
  id := ⟨⟨1⟩, 0⟩
  schema := ⟨[⟨"n", .bigint⟩]⟩
  image := #[6, 1, 1, 1, 1, 1, 1, 1, 1, 3, 0, 0, 0, 0, 0, 0, 0]
  dirtier := none
  slots_pos := by decide
  slots_le := by decide

/-- A small integer goes into the free slot of the page and is read back as a
large one, from the page and from one made of its bytes; then there is no room
for another one. -/
theorem run_refines_slots_seventeen :
    let row : Tuple := ⟨⟨[⟨"m", .bigint⟩]⟩, [.int 5], none, rfl⟩
    let calls : List PageCall := [.tally, .insert row, .rebuild, .read 0, .insert row]
    (seventeen.run calls).1
        = [.ok (.tally [1] 1 true), .ok (.stored (row.located (some ⟨⟨⟨1⟩, 0⟩, 0⟩))), .ok .done,
          .ok (.row (some ⟨seventeen.schema, [.big 5], some ⟨⟨⟨1⟩, 0⟩, 0⟩, rfl⟩)),
          .error .pageFull]
      ∧ (seventeen.run calls).1 = (seventeen.slots.run calls).1 := by
  intro row calls
  have made : Tuple.ofValues row.schema row.values = .ok row := rfl
  have conforms : row.Conforms := Tuple.conforms_of_ofValues made
  exact ⟨by decide +kernel,
    (seventeen.run_refines_slots (by simpa [calls, PageCall.Conforms] using conforms)).2.1⟩

end Page

end Tablespace
