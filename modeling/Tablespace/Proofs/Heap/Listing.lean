import Mathlib.Data.List.Sort
import Tablespace.Proofs.Heap.FirstFit
import Tablespace.Proofs.Heap.Scan

/-!
# What a file lists

What is seen of a file is a map from places to rows. As a list it is put into the order
of the places, page by page and slot by slot (`HeapFile.Lists`): each row once, with the
place in which it stands. As long as the engine has the file at hand, the rows of its
pages, one page after the other, are that list (`Engine.Hosts.lists`).

A file lists only the pages that are counted. A file of less than `2 ^ 32` pages counts
all that it has, and there is no row to be seen behind them (`Engine.Hosts.counted`).

A file stays **undisturbed** if it lists the same rows afterwards, and counts no fewer
pages. Then each page has the rows that it had
(`Engine.Hosts.rowsBefore_eq`).
-/

namespace Tablespace

/-- **The order of places**: page by page, slot by slot. -/
def RecordId.Before (a b : RecordId) : Prop :=
  a.page.number < b.page.number ∨ a.page.number = b.page.number ∧ a.slot < b.slot

/-- **Rows in the order of their places.** -/
def Tuple.Before (a b : Tuple) : Prop :=
  ∃ p q, a.record = some p ∧ b.record = some q ∧ p.Before q

theorem RecordId.Before.asymm {a b : RecordId} (before : a.Before b) : ¬b.Before a := by
  simp only [RecordId.Before, UInt32.lt_iff_toNat_lt, UInt16.lt_iff_toNat_lt,
    ← UInt32.toNat_inj] at before ⊢
  omega

theorem Tuple.Before.asymm {a b : Tuple} (before : a.Before b) : ¬b.Before a := by
  obtain ⟨p, q, hp, hq, before⟩ := before
  rintro ⟨q', p', hq', hp', after⟩
  rw [hp] at hp'
  rw [hq] at hq'
  cases hp'
  cases hq'
  exact before.asymm after

/-- **Rows in order are told by which rows they are.** -/
theorem Tuple.eq_of_ascending {rows rows' : List Tuple} (ascending : rows.Pairwise Tuple.Before)
    (ascending' : rows'.Pairwise Tuple.Before) (same : ∀ row, row ∈ rows ↔ row ∈ rows') :
    rows = rows' := by
  have : Std.Irrefl Tuple.Before := ⟨fun _ before => before.asymm before⟩
  have : Std.Antisymm Tuple.Before := ⟨fun _ _ before after => absurd after before.asymm⟩
  exact ascending.eq_of_mem_iff ascending' same

namespace Page

variable {p : Page} {row : Tuple}

/-- **What the rows of a page are**: what its slots hold, with their places. -/
theorem mem_rows_iff :
    row ∈ p.rows ↔ row.schema = p.schema
      ∧ ∃ slot : SlotId, row.record = some ⟨p.id, slot⟩ ∧ p.rowAt slot.toNat = some row.values := by
  rw [rows_eq, List.mem_filterMap]
  constructor
  · rintro ⟨slot, there, read⟩
    have number := toNat_ofNat_slot (List.mem_range.1 there)
    obtain ⟨held, schema, record⟩ := read?_eq_some_iff.1 read
    exact ⟨schema, UInt16.ofNat slot, record, number.symm ▸ held⟩
  · rintro ⟨schema, slot, record, held⟩
    have used : p.isUsed slot.toNat = true := by rw [← isSome_rowAt, held]; rfl
    have inside := lt_slotCount_of_isUsed used
    refine ⟨slot.toNat, List.mem_range.2 inside, read?_eq_some_iff.2 ⟨held, schema, ?_⟩⟩
    rw [record, UInt16.ofNat_toNat]

/-- They are in the order of the slots. -/
theorem rows_ascending (p : Page) : p.rows.Pairwise Tuple.Before := by
  rw [rows_eq, List.pairwise_filterMap]
  refine List.pairwise_lt_range.imp_of_mem fun {i j} hi hj less a ha b hb => ?_
  refine ⟨_, _, (read?_eq_some_iff.1 ha).2.2, (read?_eq_some_iff.1 hb).2.2, .inr ⟨rfl, ?_⟩⟩
  rw [UInt16.lt_iff_toNat_lt, toNat_ofNat_slot (List.mem_range.1 hi),
    toNat_ofNat_slot (List.mem_range.1 hj)]
  exact less

end Page

/-! ## Lists -/

namespace HeapFile

variable {f : HeapFile} {e e' : Engine}

/-- **What a file lists**: the rows that are seen in the pages that it counts, as rows
under its columns with their places, in order. -/
structure Lists (f : HeapFile) (e : Engine) (rows : List Tuple) : Prop where
  ascending : rows.Pairwise Tuple.Before
  complete : ∀ row, row ∈ rows ↔ row.schema = f.schema ∧ ∃ n slot, n < f.pageCount e.volume
    ∧ row.record = some ⟨⟨f.table, n⟩, slot⟩ ∧ e.seen ⟨⟨f.table, n⟩, slot⟩ = some row.values

/-- **A file of which no page is changed**: it lists the rows that it listed. It may have
new pages, which are empty. -/
structure Undisturbed (f : HeapFile) (e e' : Engine) : Prop where
  listed : ∀ rows, f.Lists e rows → f.Lists e' rows
  counted : f.pageCount e.volume ≤ f.pageCount e'.volume

/-- A file is undisturbed if it is as long, and what is seen of it is the same. -/
theorem undisturbed_of_seen (volume : e'.volume = e.volume)
    (seen : ∀ n slot, n < f.pageCount e.volume →
      e'.seen ⟨⟨f.table, n⟩, slot⟩ = e.seen ⟨⟨f.table, n⟩, slot⟩) : f.Undisturbed e e' where
  listed rows lists := by
    refine ⟨lists.ascending, fun row => (lists.complete row).trans ?_⟩
    rw [volume]
    refine and_congr_right fun _ => exists₂_congr fun n slot => and_congr_right fun there => ?_
    rw [seen n slot there]
  counted := UInt32.le_of_eq (congrArg _ volume).symm

end HeapFile

namespace Engine

variable {e e' : Engine} {f : HeapFile} {n k : Nat} {row : Tuple}

/-- The rows of fewer pages come first. -/
theorem rowsBefore_prefix (e : Engine) (table : TableId) (fewer : n ≤ k) :
    e.rowsBefore table n <+: e.rowsBefore table k := by
  induction fewer with
  | refl => exact List.prefix_rfl
  | step _ ih =>
    rw [rowsBefore_succ]
    exact ih.trans (List.prefix_append ..)

/-- Whether a page is counted is told by its number. -/
theorem ofNat_lt_pageCount (counted : n < (f.pageCount e.volume).toNat) :
    (UInt32.ofNat n).toNat = n ∧ UInt32.ofNat n < f.pageCount e.volume := by
  have number : (UInt32.ofNat n).toNat = n := by
    rw [UInt32.toNat_ofNat', Nat.mod_eq_of_lt (Nat.lt_trans counted (UInt32.toNat_lt _))]
  exact ⟨number, UInt32.lt_iff_toNat_lt.2 (number.symm ▸ counted)⟩

namespace Hosts

variable (hosts : e.Hosts f)

include hosts

/-- **The rows of a page of the file** are those that are seen in it. -/
theorem mem_pageRows_iff {m : UInt32} (counted : m < f.pageCount e.volume) :
    row ∈ e.pageRows ⟨f.table, m⟩ ↔ row.schema = f.schema ∧ ∃ slot,
      row.record = some ⟨⟨f.table, m⟩, slot⟩ ∧ e.seen ⟨⟨f.table, m⟩, slot⟩ = some row.values := by
  obtain ⟨q, seen, fits⟩ := hosts.pageSeen (hosts.lt_pages counted)
  rw [pageRows_of_ok seen, Page.mem_rows_iff, fits.id, fits.place.2.2.2]
  simp only [Engine.seen, seen, rowsOf]

/-- **The rows of the first pages** are those that are seen in them. -/
theorem mem_rowsBefore_iff (bounded : n ≤ (f.pageCount e.volume).toNat) :
    row ∈ e.rowsBefore f.table n ↔ row.schema = f.schema ∧ ∃ m slot, m.toNat < n
      ∧ row.record = some ⟨⟨f.table, m⟩, slot⟩
      ∧ e.seen ⟨⟨f.table, m⟩, slot⟩ = some row.values := by
  rw [rowsBefore, List.mem_flatMap]
  constructor
  · rintro ⟨i, there, shown⟩
    have before := List.mem_range.1 there
    obtain ⟨number, counted⟩ := ofNat_lt_pageCount (Nat.lt_of_lt_of_le before bounded)
    obtain ⟨schema, slot, found⟩ := (hosts.mem_pageRows_iff counted).1 shown
    exact ⟨schema, _, slot, number.symm ▸ before, found⟩
  · rintro ⟨schema, m, slot, before, found⟩
    have counted : m < f.pageCount e.volume :=
      UInt32.lt_iff_toNat_lt.2 (Nat.lt_of_lt_of_le before bounded)
    refine ⟨m.toNat, List.mem_range.2 before, ?_⟩
    rw [UInt32.ofNat_toNat]
    exact (hosts.mem_pageRows_iff counted).2 ⟨schema, slot, found⟩

/-- They are in the order of their places. -/
theorem rowsBefore_ascending (bounded : n ≤ (f.pageCount e.volume).toNat) :
    (e.rowsBefore f.table n).Pairwise Tuple.Before := by
  rw [rowsBefore, List.pairwise_flatMap]
  have counted {i : Nat} (there : i ∈ List.range n) :=
    ofNat_lt_pageCount (Nat.lt_of_lt_of_le (List.mem_range.1 there) bounded)
  refine ⟨fun i there => ?_, List.pairwise_lt_range.imp_of_mem fun {i j} hi hj less a ha b hb => ?_⟩
  · obtain ⟨q, seen, -⟩ := hosts.pageSeen (hosts.lt_pages (counted there).2)
    rw [pageRows_of_ok seen]
    exact q.rows_ascending
  · obtain ⟨-, _, placed, -⟩ := (hosts.mem_pageRows_iff (counted hi).2).1 ha
    obtain ⟨-, _, placed', -⟩ := (hosts.mem_pageRows_iff (counted hj).2).1 hb
    refine ⟨_, _, placed, placed', .inl (UInt32.lt_iff_toNat_lt.2 ?_)⟩
    rw [(counted hi).1, (counted hj).1]
    exact less

/-- **The rows of all pages are what the file lists.** -/
theorem lists : f.Lists e (e.rowsBefore f.table (f.pageCount e.volume).toNat) where
  ascending := hosts.rowsBefore_ascending (Nat.le_refl _)
  complete row := by
    simp only [hosts.mem_rowsBefore_iff (Nat.le_refl _), UInt32.lt_iff_toNat_lt]

/-- Of what the file lists, the rows of the first pages are those that stand there. -/
theorem mem_rowsBefore_iff_of_lists {rows : List Tuple} (listed : f.Lists e rows)
    (bounded : n ≤ (f.pageCount e.volume).toNat) :
    row ∈ e.rowsBefore f.table n
      ↔ row ∈ rows ∧ ∀ place, row.record = some place → place.page.number.toNat < n := by
  rw [hosts.mem_rowsBefore_iff bounded, listed.complete]
  constructor
  · rintro ⟨schema, m, slot, before, record, shown⟩
    have counted : m < f.pageCount e.volume :=
      UInt32.lt_iff_toNat_lt.2 (Nat.lt_of_lt_of_le before bounded)
    refine ⟨⟨schema, m, slot, counted, record, shown⟩, fun place stands => ?_⟩
    cases record.symm.trans stands
    exact before
  · rintro ⟨⟨schema, m, slot, -, record, shown⟩, before⟩
    exact ⟨schema, m, slot, before _ record, record, shown⟩

/-- There is one list. -/
theorem eq_of_lists {rows : List Tuple} (listed : f.Lists e rows) :
    rows = e.rowsBefore f.table (f.pageCount e.volume).toNat :=
  Tuple.eq_of_ascending listed.ascending hosts.lists.ascending fun row =>
    (listed.complete row).trans (hosts.lists.complete row).symm

/-- **A file of less than `2 ^ 32` pages counts all that it has.** -/
theorem counted (small : f.count e.volume < 4294967296) {m : UInt32} {slot : SlotId}
    (shown : e.seen ⟨⟨f.table, m⟩, slot⟩ ≠ none) : m < f.pageCount e.volume := by
  cases seen : e.pageSeen ⟨f.table, m⟩ with
  | error cause =>
    rw [Engine.seen, seen] at shown
    exact absurd rfl shown
  | ok q =>
    have inside := (hosts.tends.fits_of_pageSeen rfl seen).place.2.1
    rw [UInt32.lt_iff_toNat_lt, HeapFile.toNat_pageCount, Nat.mod_eq_of_lt small,
      hosts.whole.count_eq]
    exact inside

end Hosts

/-- **While a file is undisturbed**, each of its pages has the rows that it had. -/
theorem Hosts.rowsBefore_eq (hosts : e.Hosts f) (hosts' : e'.Hosts f)
    (undisturbed : f.Undisturbed e e') (bounded : n ≤ (f.pageCount e.volume).toNat) :
    e'.rowsBefore f.table n = e.rowsBefore f.table n := by
  have bounded' := Nat.le_trans bounded (UInt32.le_iff_toNat_le.1 undisturbed.counted)
  refine Tuple.eq_of_ascending (hosts'.rowsBefore_ascending bounded')
    (hosts.rowsBefore_ascending bounded) fun row => ?_
  rw [hosts'.mem_rowsBefore_iff_of_lists (undisturbed.listed _ hosts.lists) bounded',
    hosts.mem_rowsBefore_iff_of_lists hosts.lists bounded]

/-- A file is undisturbed if its pages have the rows that they had. -/
theorem Hosts.undisturbed (hosts : e.Hosts f) (hosts' : e'.Hosts f)
    (counted : f.pageCount e'.volume = f.pageCount e.volume)
    (same : e'.rowsBefore f.table (f.pageCount e.volume).toNat
      = e.rowsBefore f.table (f.pageCount e.volume).toNat) : f.Undisturbed e e' where
  listed rows listed := by
    rw [hosts.eq_of_lists listed, ← same, ← counted]
    exact hosts'.lists
  counted := UInt32.le_of_eq counted.symm

end Engine

end Tablespace
