import Tablespace.Pool.Basic
import Tablespace.Proofs.Cache
import Tablespace.Proofs.Heap.File
import Tablespace.Proofs.Locks.Modes

/-!
# What an engine shows

An engine keeps rows in two places: in the files, and in the cache. Both are
maps from places to rows. What is **stored** is what the files hold
(`Engine.stored`). What is **seen** is what a fetch gives: the page in the
cache if there is one, and otherwise the page of the file (`Engine.seen`).

The two differ only where a transaction has changed a page and has not ended.
An engine of which this is true is **coherent** (`Engine.Coherent`): every page
in the cache is also in the file, whoever has changed a page holds it
exclusive, and every clean page holds the rows of the file.

There is one exception. A page of a file of more than `2 ^ 32` pages can be
written over by an append (`HeapFile.Overrun`), and nothing is promised about
it.
-/

namespace Tablespace

/-- **Rows by their places.** -/
abbrev Rows := RecordId → Option (List Value)

namespace Catalog

variable {c : Catalog} {table : TableId} {f g : HeapFile} {v : Volume} {p : PageId} {q : Page}
  {cause : Fault}

/-- **No two tables keep their rows in the same file.** -/
def Apart (c : Catalog) : Prop :=
  ∀ a b f g, c.file a = .ok f → c.file b = .ok g → f.path = g.path → a = b

/-- The file of a table is the file of an entry. -/
theorem mem_of_file (h : c.file table = .ok f) :
    ∃ entry ∈ c.entries, entry.table = table ∧ entry.file = f := by
  unfold file entry at h
  cases found : c.entries.find? (·.table = table) with
  | none => rw [found] at h; cases h
  | some entry =>
    rw [found] at h
    cases h
    exact ⟨entry, List.mem_of_find?_eq_some found, by simpa using List.find?_some found, rfl⟩

/-- The file that the catalog has for a table is one of that table. -/
theorem table_of_file (h : c.file table = .ok f) : f.table = table := by
  obtain ⟨entry, -, name, rfl⟩ := mem_of_file h
  exact name

/-- A table without a file is unknown. -/
theorem file_error (h : c.file table = .error cause) : cause = .tableNotFound table := by
  unfold file entry at h
  cases found : c.entries.find? (·.table = table) with
  | none => rw [found] at h; exact (Except.error.inj h).symm
  | some entry => rw [found] at h; cases h

/-- Tables whose files have different paths have files of their own. -/
theorem apart_of_nodup (h : (c.entries.map (·.file.path)).Nodup) : c.Apart := by
  intro a b f g ha hb path
  obtain ⟨x, hx, rfl, rfl⟩ := mem_of_file ha
  obtain ⟨y, hy, rfl, rfl⟩ := mem_of_file hb
  rw [List.inj_on_of_nodup_map h hx hy path]

/-- **A table is told by the path of its file.** -/
theorem Apart.eq_of_path (apart : c.Apart) (file : c.file f.table = .ok f)
    (other : c.file table = .ok g) (path : g.path = f.path) : g = f := by
  have same := apart _ _ _ _ other file path
  subst same
  exact Except.ok.inj (other.symm.trans file)

/-! ## Reading through the catalog -/

/-- **The page of a file**, of the file that the catalog names. -/
def readPage (c : Catalog) (v : Volume) (p : PageId) : Except Fault Page := do
  let file ← c.file p.table
  file.readPage v p

theorem readPage_of_file (h : c.file p.table = .ok f) : c.readPage v p = f.readPage v p := by
  unfold readPage
  rw [h]
  rfl

/-- What is read is read from the file of the table. -/
theorem file_of_readPage (h : c.readPage v p = .ok q) :
    ∃ f, c.file p.table = .ok f ∧ f.readPage v p = .ok q := by
  cases file : c.file p.table with
  | error cause =>
    unfold readPage at h
    rw [file] at h
    cases h
  | ok f => exact ⟨f, rfl, (readPage_of_file file).symm.trans h⟩

/-- What is read is clean, and goes by its name. -/
theorem of_readPage (h : c.readPage v p = .ok q) : q.id = p ∧ q.dirtier = none := by
  obtain ⟨f, -, read⟩ := file_of_readPage h
  obtain ⟨table, image, size, -, rfl⟩ := HeapFile.readPage_eq_ok_iff.1 read
  exact ⟨by rw [HeapFile.page, ← table], rfl⟩

/-- **What is read after a page of a file was written**: the page written, or
what was read before. -/
theorem Apart.readPage_writeAt (apart : c.Apart) (file : c.file f.table = .ok f) {n : UInt32}
    {bytes : List UInt8} (length : bytes.length = f.pageSize) (next : n.toNat ≤ f.pages v) :
    c.readPage (f.writeAt v n bytes) p
      = if p = ⟨f.table, n⟩ then .ok (f.page n bytes.toArray (by simpa using length))
        else c.readPage v p := by
  cases found : c.file p.table with
  | error cause =>
    have other : p ≠ ⟨f.table, n⟩ := fun eq => by
      rw [eq, file] at found
      cases found
    rw [if_neg other]
    unfold readPage
    rw [found]
    rfl
  | ok g =>
    rw [readPage_of_file found, readPage_of_file found]
    by_cases path : g.path = f.path
    · rw [apart.eq_of_path file found path]
      exact HeapFile.readPage_writeAt length next
    · have other : p ≠ ⟨f.table, n⟩ := fun eq => by
        rw [eq, file] at found
        cases found
        exact path rfl
      rw [if_neg other]
      exact HeapFile.readPage_congr (by rw [HeapFile.content_writeAt_of_ne path])

end Catalog

namespace Engine

variable {e : Engine} {t u : TxnId} {p : PageId} {q : Page} {f : HeapFile} {r : RecordId}

/-! ## Rows stored and rows seen -/

/-- The rows of a page, if there is one. -/
def rowsOf : Except Fault Page → SlotId → Option (List Value)
  | .ok p, slot => p.rowAt slot.toNat
  | .error _, _ => none

/-- **The rows that the files hold.** -/
def stored (e : Engine) : Rows :=
  fun r => rowsOf (e.readPage r.page) r.slot

/-- **The page that a fetch gives**: the one in the cache, or else the one in
the file. -/
def pageSeen (e : Engine) (p : PageId) : Except Fault Page :=
  match e.frame? p with
  | some frame => .ok frame.page
  | none => e.readPage p

/-- **The rows that a fetch shows.** -/
def seen (e : Engine) : Rows :=
  fun r => rowsOf (e.pageSeen r.page) r.slot

/-- **A transaction has changed the page in the cache** and has not ended. -/
def DirtyFor (e : Engine) (t : TxnId) (p : PageId) : Prop :=
  ∃ frame, e.frame? p = some frame ∧ frame.page.dirtier = some t

/-- **A page that the next append to its file is written over.** -/
def Overrun (e : Engine) (p : PageId) : Prop :=
  ∃ f, e.catalog.file p.table = .ok f ∧ f.Overrun e.volume p.number

/-- **The files of an engine are as long** as in another one. -/
def SameSizes (e e' : Engine) : Prop :=
  ∀ table f, e.catalog.file table = .ok f →
    (e'.volume.content f.path).size = (e.volume.content f.path).size

/-- **A page is in its file as it was**, or is new there and empty. -/
def Keeps (e e' : Engine) (p : PageId) : Prop :=
  e'.readPage p = e.readPage p
    ∨ (∃ cause, e.readPage p = .error cause)
      ∧ ∃ f, e.catalog.file p.table = .ok f ∧ e'.readPage p = .ok (f.emptyPage p.number)

/-- A page that is kept twice is kept. -/
theorem Keeps.trans {e' e'' : Engine} (first : e.Keeps e' p) (catalog : e'.catalog = e.catalog)
    (second : e'.Keeps e'' p) : e.Keeps e'' p := by
  rcases second with same | ⟨⟨cause, missing⟩, f, file, new⟩
  · rw [Keeps, same]
    exact first
  · refine .inr ⟨?_, f, catalog ▸ file, new⟩
    rcases first with same | ⟨-, _, -, there⟩
    · exact ⟨cause, same ▸ missing⟩
    · rw [there] at missing
      cases missing

/-- A page that was there is kept as it was. -/
theorem Keeps.readPage_eq {e' : Engine} (kept : e.Keeps e' p) (there : ∃ q, e.readPage p = .ok q) :
    e'.readPage p = e.readPage p := by
  obtain ⟨q, there⟩ := there
  rcases kept with same | ⟨⟨cause, missing⟩, -⟩
  · exact same
  · rw [there] at missing
    cases missing

/-- A page that is kept holds the rows that it held. -/
theorem Keeps.stored {e' : Engine} (kept : e.Keeps e' r.page) : e'.stored r = e.stored r := by
  rw [Engine.stored, Engine.stored]
  rcases kept with same | ⟨⟨cause, missing⟩, f, -, new⟩
  · rw [same]
  · rw [new, missing]
    exact HeapFile.rowAt_emptyPage ..

/-- A page that is changed is changed by one transaction. -/
theorem DirtyFor.unique (ht : e.DirtyFor t p) (hu : e.DirtyFor u p) : t = u := by
  obtain ⟨frame, there, dirty⟩ := ht
  obtain ⟨frame', there', dirty'⟩ := hu
  rw [there] at there'
  cases there'
  rw [dirty] at dirty'
  exact Option.some.inj dirty'

/-- The page read depends on the catalog and the files. -/
theorem readPage_congr {e' : Engine} (catalog : e'.catalog = e.catalog)
    (volume : e'.volume = e.volume) : e'.readPage p = e.readPage p := by
  rw [readPage, readPage, catalog, volume]

/-- The page that is overrun is told by how long its file is. -/
theorem SameSizes.overrun_iff {e' : Engine} (sizes : e.SameSizes e')
    (catalog : e'.catalog = e.catalog) : e'.Overrun p ↔ e.Overrun p := by
  rw [Overrun, Overrun, catalog]
  refine exists_congr fun f => and_congr_right fun file => ?_
  have same := sizes _ f file
  rw [HeapFile.Overrun, HeapFile.Overrun, HeapFile.pages_congr same, HeapFile.pageCount_congr same]

theorem sameSizes_of_volume {e' : Engine} (volume : e'.volume = e.volume) : e.SameSizes e' :=
  fun _ _ _ => by rw [volume]

theorem overrun_congr {e' : Engine} (catalog : e'.catalog = e.catalog)
    (volume : e'.volume = e.volume) : e'.Overrun p ↔ e.Overrun p :=
  (sameSizes_of_volume volume).overrun_iff catalog

theorem pageSeen_of_frame {frame : Frame} (h : e.frame? p = some frame) :
    e.pageSeen p = .ok frame.page := by
  rw [pageSeen, h]

theorem pageSeen_of_absent (h : e.frame? p = none) : e.pageSeen p = e.readPage p := by
  rw [pageSeen, h]

/-! ## Pages of the files -/

theorem readPage_of_file (h : e.catalog.file p.table = .ok f) :
    e.readPage p = f.readPage e.volume p :=
  Catalog.readPage_of_file h

/-- What is read is read from the file of the table. -/
theorem file_of_readPage (h : e.readPage p = .ok q) :
    ∃ f, e.catalog.file p.table = .ok f ∧ f.readPage e.volume p = .ok q :=
  Catalog.file_of_readPage h

/-- What is read is clean, and goes by its name. -/
theorem of_readPage (h : e.readPage p = .ok q) : q.id = p ∧ q.dirtier = none :=
  Catalog.of_readPage h

/-- **What is wrong with a page that cannot be read**: its table is unknown,
or is not the one of the file, or the page is not there. -/
theorem readPage_error {cause : Fault} (h : e.readPage p = .error cause) :
    cause = .tableNotFound p.table ∨ (∃ table, cause = .tableMismatch table p.table)
      ∨ ∃ flaw, cause = .corruptPage p flaw := by
  cases file : e.catalog.file p.table with
  | ok f =>
    rw [readPage_of_file file] at h
    exact .inr ((HeapFile.readPage_error h).imp_left fun mismatch => ⟨_, mismatch⟩)
  | error cause' =>
    unfold readPage at h
    rw [file] at h
    exact .inl ((Except.error.inj h).symm.trans (Catalog.file_error file))

/-- A page that cannot be read is no missing row. -/
theorem readPage_ne_error : e.readPage p ≠ .error .noSuchElement := fun h => by
  rcases readPage_error h with eq | ⟨_, eq⟩ | ⟨_, eq⟩ <;> cases eq

/-- A page that cannot be read is no want of room. -/
theorem readPage_ne_poolFull : e.readPage p ≠ .error .poolFull := fun h => by
  rcases readPage_error h with eq | ⟨_, eq⟩ | ⟨_, eq⟩ <;> cases eq

/-- Two pages that are read from one file at different times are alike. -/
theorem alike_of_readPage {e' : Engine} {q' : Page} (h : e.readPage p = .ok q)
    (h' : e'.readPage p = .ok q') (same : e'.catalog = e.catalog) : q.Alike q' := by
  obtain ⟨f, file, read⟩ := file_of_readPage h
  obtain ⟨f', file', read'⟩ := file_of_readPage h'
  rw [same, file] at file'
  cases file'
  obtain ⟨-, image, size, -, rfl⟩ := HeapFile.readPage_eq_ok_iff.1 read
  obtain ⟨-, image', size', -, rfl⟩ := HeapFile.readPage_eq_ok_iff.1 read'
  exact ⟨rfl, rfl, size'.trans size.symm⟩

/-! ## Coherence -/

/-- **An engine whose cache, locks and files agree.** -/
structure Coherent (e : Engine) : Prop where
  /-- The tables have files of their own. -/
  apart : e.catalog.Apart
  /-- The locks are sound. -/
  locks : e.locks.Sound
  /-- What is in the cache is a state of a page of the file. -/
  cached : ∀ p frame, e.frame? p = some frame → ∃ q, e.readPage p = .ok q ∧ q.Alike frame.page
  /-- Whoever has changed a page holds it exclusive. -/
  owned : ∀ t p, e.DirtyFor t p → e.locks.mode? t p = some .exclusive
  /-- A clean page holds the rows of the file. -/
  clean : ∀ p frame q, e.frame? p = some frame → frame.page.dirtier = none →
    e.readPage p = .ok q → ¬e.Overrun p → ∀ slot, frame.page.rowAt slot = q.rowAt slot

namespace Coherent

variable (coherent : e.Coherent)

include coherent

/-- A page in the cache goes by its name. -/
theorem id_of_frame {frame : Frame} (h : e.frame? p = some frame) : frame.page.id = p := by
  obtain ⟨q, read, alike⟩ := coherent.cached p frame h
  rw [alike.id, (of_readPage read).1]

/-- **Where nobody has changed anything, what is seen is what is stored.** -/
theorem seen_eq_stored (undirtied : ∀ t, ¬e.DirtyFor t r.page) (h : ¬e.Overrun r.page) :
    e.seen r = e.stored r := by
  rw [seen, stored]
  cases there : e.frame? r.page with
  | none => rw [pageSeen_of_absent there]
  | some frame =>
    obtain ⟨q, read, -⟩ := coherent.cached _ _ there
    have clean : frame.page.dirtier = none := by
      cases dirtier : frame.page.dirtier with
      | none => rfl
      | some t => exact absurd ⟨frame, there, dirtier⟩ (undirtied t)
    rw [pageSeen_of_frame there, read]
    exact coherent.clean _ _ _ there clean read h _

/-- Nobody but the one who has changed a page holds it. -/
theorem alone (dirty : e.DirtyFor t p) (other : u ≠ t) : e.locks.mode? u p = none :=
  coherent.locks.mode?_eq_none_of_exclusive (coherent.owned t p dirty) other

/-- The page that is seen is a state of the page of the file. -/
theorem alike_of_pageSeen (h : e.pageSeen p = .ok q) : ∃ d, e.readPage p = .ok d ∧ d.Alike q := by
  cases there : e.frame? p with
  | none =>
    rw [pageSeen_of_absent there] at h
    exact ⟨q, h, .refl q⟩
  | some frame =>
    rw [pageSeen_of_frame there] at h
    cases h
    exact coherent.cached _ _ there

/-- The pages that are seen at different times are states of one page. -/
theorem alike_of_seen {e' : Engine} {q' : Page} (coherent' : e'.Coherent)
    (catalog : e'.catalog = e.catalog) (before : e.pageSeen p = .ok q)
    (now : e'.pageSeen p = .ok q') : q.Alike q' := by
  obtain ⟨d, read, alike⟩ := coherent.alike_of_pageSeen before
  obtain ⟨d', read', alike'⟩ := coherent'.alike_of_pageSeen now
  have disk := alike_of_readPage read read' catalog
  exact ⟨by rw [alike'.id, disk.id, alike.id], by rw [alike'.schema, disk.schema, alike.schema],
    by rw [alike'.size, disk.size, alike.size]⟩

end Coherent

/-- An engine that nobody has used has no locks and no pages at hand. -/
theorem eq_of_start {c : Config} {volume : Volume} {catalog : Catalog}
    (h : start c volume catalog = .ok e) :
    e = ⟨volume, catalog, .empty, .empty, 0, c.capacity⟩ := by
  unfold start at h
  cases valid : c.validate with
  | error cause => rw [valid] at h; cases h
  | ok u => rw [valid] at h; exact (Except.ok.inj h).symm

/-- **An engine that nobody has used is coherent**, if its tables have files of
their own. -/
theorem coherent_of_start {c : Config} {volume : Volume} {catalog : Catalog}
    (apart : catalog.Apart) (h : start c volume catalog = .ok e) : e.Coherent := by
  obtain rfl := eq_of_start h
  exact
    { apart := apart
      locks := LockTable.sound_empty
      cached := fun p frame there => by simp [frame?] at there
      owned := fun t p ⟨frame, there, _⟩ => by simp [frame?] at there
      clean := fun p frame q there => by simp [frame?] at there }

end Engine

end Tablespace
