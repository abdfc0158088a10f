import Tablespace.Proofs.Engine.Anchored
import Tablespace.Proofs.Pool.Step

/-!
# Tables whose pages stay with their file

A page of the cache goes by its table and its number, and the file of the table
is looked up again whenever the page is written or read again. So a page belongs
to its file only as long as nobody registers the table with another file, and no
other table is registered with the same file. Then the engine **tends** the
file (`Engine.Tends`): the pages of the table that are in the cache are states of
pages of the file, and those that are clean hold the rows that the file holds.

This is coherence (`Engine.Coherent`) for one file, whatever becomes of the
others, and without a word on locks: a page may be changed by whoever does not
hold it. It is kept by every step of the pool (`Engine.Tends.step`).

In a quiet step no row of the table is changed, neither as it is seen nor as it is
stored (`Engine.Tends.quietly`). Again there is one exception, which is the page
of a file of more than `2 ^ 32` pages that an append is written over
(`HeapFile.Overrun`).

An engine has a file **at hand** (`Engine.Hosts`) if it tends it, the catalog names it and
its last page is not cut short. Then every page that is counted can be seen.
-/

namespace Tablespace

namespace HeapFile

variable {f g : HeapFile} {grow : HeapFile → Volume → Prop} {v : Volume} {p : PageId}

/-- **A file that is no rival**: unless it is the same, it is of another table and
lies elsewhere. -/
def Spares (f g : HeapFile) : Prop :=
  g.table = f.table ∨ g.path = f.path → g = f

theorem Spares.refl (f : HeapFile) : f.Spares f :=
  fun _ => rfl

/-- **Files that may grow beside a file**: those that are no rivals, and the file
itself where the next page leaves no gap. -/
def Bears (f : HeapFile) (grow : HeapFile → Volume → Prop) : Prop :=
  ∀ g v, grow g v → f.Spares g ∧ (g = f → (f.pageCount v).toNat ≤ f.pages v)

/-- The file becomes longer by whole pages, as far as the page count can tell. -/
theorem Bears.grown (bears : f.Bears grow) (may : grow g v) : f.Grown v (g.appendPage v).2 := by
  obtain ⟨spares, next⟩ := bears g v may
  by_cases path : g.path = f.path
  · obtain rfl := spares (.inr path)
    exact grown_append (next rfl)
  · exact .inl (by rw [appendPage_eq, content_writeAt_of_ne (Ne.symm path)])

/-- **A page of the file is as it was after an append**, or it is new and
empty. -/
theorem Bears.readPage_append (bears : f.Bears grow) (may : grow g v) (p : PageId)
    (intact : ¬f.Overrun (g.appendPage v).2 p.number) :
    f.readPage (g.appendPage v).2 p = f.readPage v p
      ∨ (∃ cause, f.readPage v p = .error cause)
        ∧ f.readPage (g.appendPage v).2 p = .ok (f.emptyPage p.number) := by
  have grown := bears.grown may
  obtain ⟨spares, next⟩ := bears g v may
  by_cases path : g.path = f.path
  · obtain rfl := spares (.inr path)
    have read := readPage_appendPage (next rfl) p
    by_cases last : p = ⟨g.table, g.pageCount v⟩
    · subst last
      refine .inr ⟨?_, read.trans (if_pos rfl)⟩
      have new : g.pages v ≤ (g.pageCount v).toNat :=
        pages_le_of_not_overrun fun hit => intact (grown.overrun hit)
      cases old : g.readPage v ⟨g.table, g.pageCount v⟩ with
      | error cause => exact ⟨cause, rfl⟩
      | ok d => exact absurd (isOk_readPage_iff.1 ⟨d, old⟩).2 (Nat.not_lt.2 new)
    · exact .inl (read.trans (if_neg last))
  · refine .inl (readPage_congr ?_)
    rw [appendPage_eq, content_writeAt_of_ne (Ne.symm path)]

end HeapFile

namespace Engine

variable {e e' : Engine} {f g : HeapFile} {grow : HeapFile → Volume → Prop} {p : PageId} {d : Page}

/-- **An engine that tends a file**: it keeps the pages of its table with it. -/
structure Tends (e : Engine) (f : HeapFile) : Prop where
  /-- No rival is registered. -/
  spared : ∀ entry ∈ e.catalog.entries, f.Spares entry.file
  /-- What is in the cache is a state of a page of the file. -/
  cached : ∀ p frame, p.table = f.table → e.frame? p = some frame → f.Fits e.volume p frame.page
  /-- A clean page holds the rows of the file. -/
  clean : ∀ p frame d, p.table = f.table → e.frame? p = some frame → frame.page.dirtier = none →
    f.readPage e.volume p = .ok d → ¬f.Overrun e.volume p.number →
      ∀ slot, frame.page.rowAt slot = d.rowAt slot

/-- An engine without pages of the table tends its file, if no rival is
registered. -/
theorem tends_of_absent (spared : ∀ entry ∈ e.catalog.entries, f.Spares entry.file)
    (absent : ∀ p, p.table = f.table → e.frame? p = none) : e.Tends f where
  spared := spared
  cached p frame table there := by
    rw [absent p table] at there
    cases there
  clean p frame d table there := by
    rw [absent p table] at there
    cases there

namespace Tends

variable (tends : e.Tends f)

include tends

/-- A file that is registered is no rival. -/
theorem spares {table : TableId} (file : e.catalog.file table = .ok g) : f.Spares g := by
  obtain ⟨entry, there, -, rfl⟩ := Catalog.mem_of_file file
  exact tends.spared entry there

/-- A page of the table that is read is read from the file. -/
theorem readPage_of (table : p.table = f.table) (read : e.readPage p = .ok d) :
    f.readPage e.volume p = .ok d := by
  obtain ⟨g, file, read⟩ := file_of_readPage read
  obtain rfl := tends.spares file (.inl ((Catalog.table_of_file file).trans table))
  exact read

/-- **A page of the table that is seen** is a state of a page of the file. -/
theorem fits_of_pageSeen (table : p.table = f.table) (seen : e.pageSeen p = .ok d) :
    f.Fits e.volume p d := by
  cases there : e.frame? p with
  | some frame =>
    rw [pageSeen_of_frame there] at seen
    cases seen
    exact tends.cached p frame table there
  | none =>
    rw [pageSeen_of_absent there] at seen
    exact HeapFile.fits_of_readPage (tends.readPage_of table seen)

/-- **A clean page shows the rows of the file.** -/
theorem matches_of (file : e.catalog.file p.table = .ok f)
    (intact : ¬f.Overrun e.volume p.number) : e.Matches p := by
  intro undirtied slot
  have table : p.table = f.table := (Catalog.table_of_file file).symm
  rw [seen, stored]
  cases there : e.frame? p with
  | none => rw [pageSeen_of_absent there]
  | some frame =>
    obtain ⟨d, read, -⟩ := tends.cached p frame table there
    have clean : frame.page.dirtier = none := by
      cases dirtier : frame.page.dirtier with
      | none => rfl
      | some t => exact absurd ⟨frame, there, dirtier⟩ (undirtied t)
    rw [pageSeen_of_frame there, readPage_of_file file, read]
    exact tends.clean p frame d table there clean read intact _

/-! ## Steps -/

/-- Pages may be replaced by others with the same rows, and be read again. -/
theorem recache (catalog : e'.catalog = e.catalog) (volume : e'.volume = e.volume)
    (pages : ∀ p frame', e'.frame? p = some frame' →
      (∃ frame, e.frame? p = some frame ∧ frame.page.SameRows frame'.page)
        ∨ e.readPage p = .ok frame'.page) : e'.Tends f where
  spared := catalog ▸ tends.spared
  cached p frame' table there := by
    rw [volume]
    rcases pages p frame' there with ⟨frame, before, same⟩ | read
    · exact (tends.cached p frame table before).alike same.toAlike
    · exact HeapFile.fits_of_readPage (tends.readPage_of table read)
  clean p frame' d table there clean read intact slot := by
    rw [volume] at read intact
    rcases pages p frame' there with ⟨frame, before, same⟩ | again
    · rw [same.rows, tends.clean p frame d table before (same.dirtier ▸ clean) read intact]
    · rw [Except.ok.inj ((tends.readPage_of table again).symm.trans read)]

/-- **Files grow** beside the file, or the file itself. -/
theorem append (bears : f.Bears grow) (may : grow g e.volume) :
    Tends { e with volume := (g.appendPage e.volume).2 } f where
  spared := tends.spared
  cached p frame table there :=
    (tends.cached p frame table there).mono (bears.grown may).pages_le
  clean p frame d table there clean read intact slot := by
    rcases bears.readPage_append may p intact with same | ⟨⟨cause, missing⟩, -⟩
    · exact tends.clean p frame d table there clean (same.symm.trans read)
        (fun hit => intact ((bears.grown may).overrun hit)) slot
    · -- a new page is not in the cache yet
      obtain ⟨old, there, -⟩ := tends.cached p frame table there
      rw [missing] at there
      cases there

/-- **A row is changed** on a page, which is dirty then. -/
theorem store {frame : Frame} {q : Page} {cache : Cache Frame} (there : e.frame? p = some frame)
    (after : cache.peek? p = some ⟨q, frame.load⟩)
    (others : ∀ r, r ≠ p → cache.peek? r = e.frame? r) (alike : frame.page.Alike q)
    (dirty : q.dirtier ≠ none) : Tends { e with cache := cache } f where
  spared := tends.spared
  cached r g table here := by
    by_cases same : r = p
    · subst same
      rw [show frame? { e with cache := cache } r = _ from after] at here
      cases here
      exact (tends.cached r frame table there).alike alike
    · exact tends.cached r g table ((others r same).symm.trans here)
  clean r g d table here clean read intact slot := by
    by_cases same : r = p
    · subst same
      rw [show frame? { e with cache := cache } r = _ from after] at here
      cases here
      exact absurd clean dirty
    · exact tends.clean r g d table ((others r same).symm.trans here) clean read intact slot

/-- **What is read after a page was written back** to the file that the catalog
names. -/
theorem readPage_wroteBack {frame : Frame} (there : e.frame? p = some frame)
    (file : e.catalog.file p.table = .ok g) (r : PageId) (table : r.table = f.table) :
    f.readPage (e.wroteBack g p frame).volume r
      = if r = p then .ok (frame.page.markDirty none) else f.readPage e.volume r := by
  have name : g.table = p.table := Catalog.table_of_file file
  by_cases mine : p.table = f.table
  · obtain rfl := tends.spares file (.inl (name.trans mine))
    exact (tends.cached p frame mine there).readPage_writeAt r
  · have other : r ≠ p := fun same => mine (same ▸ table)
    have path : f.path ≠ g.path := fun same =>
      mine (name.symm.trans (congrArg _ (tends.spares file (.inr same.symm))))
    rw [if_neg other]
    exact HeapFile.readPage_congr (by rw [wroteBack, HeapFile.content_writeAt_of_ne path])

/-- The file does not become longer. -/
theorem size_wroteBack {frame : Frame} (there : e.frame? p = some frame)
    (file : e.catalog.file p.table = .ok g) :
    ((e.wroteBack g p frame).volume.content f.path).size = (e.volume.content f.path).size := by
  have name : g.table = p.table := Catalog.table_of_file file
  by_cases path : g.path = f.path
  · obtain rfl := tends.spares file (.inr path)
    exact (tends.cached p frame name.symm there).size_writeAt _
  · rw [wroteBack, HeapFile.content_writeAt_of_ne (Ne.symm path)]

/-- **A page is written back.** -/
theorem wroteBack {frame : Frame} (there : e.frame? p = some frame)
    (file : e.catalog.file p.table = .ok g) : (e.wroteBack g p frame).Tends f where
  spared := tends.spared
  cached r h table here := by
    have less : f.pages e.volume ≤ f.pages (e.wroteBack g p frame).volume :=
      Nat.le_of_eq (HeapFile.pages_congr (tends.size_wroteBack there file)).symm
    rw [frame?_wroteBack there] at here
    split at here
    · rename_i same
      subst same
      cases here
      exact ((tends.cached r frame table there).alike (frame.page.alike_markDirty none)).mono less
    · exact (tends.cached r h table here).mono less
  clean r h d table here clean read intact slot := by
    rw [frame?_wroteBack there] at here
    rw [tends.readPage_wroteBack there file r table] at read
    split at here
    · rename_i same
      cases here
      rw [if_pos same] at read
      cases read
      rfl
    · rename_i other
      rw [if_neg other] at read
      refine tends.clean r h d table here clean read (fun hit => intact ?_) slot
      exact (HeapFile.Grown.overrun (.inl (tends.size_wroteBack there file)) hit)

/-- A quiet step keeps the pages of the table with the file. -/
theorem quiet (bears : f.Bears grow) (quiet : Quiet grow e e') : e'.Tends f := by
  have same (frame : Frame) : frame.page.SameRows frame.page := ⟨.refl _, fun _ => rfl⟩
  have came := quiet.recached
  cases quiet with
  | append g may => exact tends.append bears may
  | relock | touch | evict | load | scribble =>
    refine tends.recache rfl rfl fun p frame' there => ?_
    cases there ▸ came p with
    | kept frame _ before same rows => exact .inl ⟨frame, before, same, rows⟩
    | loaded _ absent read => exact .inr read

/-- **Every step keeps the pages of the table with the file.** -/
theorem step (bears : f.Bears grow) (step : Step grow e e') : e'.Tends f := by
  cases step with
  | quiet quiet => exact tends.quiet bears quiet
  | discard p =>
    refine tends.recache rfl rfl fun r frame there => .inl ⟨frame, ?_, .refl _, fun _ => rfl⟩
    rw [frame?, Engine.discard, Cache.peek?_erase] at there
    split at there
    · cases there
    · exact there
  | store p frame q cache there after others alike dirty =>
    exact tends.store there after others alike dirty
  | write p frame g there file size => exact tends.wroteBack there file

theorem steps (bears : f.Bears grow) (steps : Steps grow e e') : e'.Tends f := by
  induction steps with
  | refl => exact tends
  | tail _ step ih => exact ih.step bears step

/-- The file stays as long as it is, or becomes longer by whole pages. -/
theorem grown (bears : f.Bears grow) (steps : Steps grow e e') : f.Grown e.volume e'.volume := by
  induction steps with
  | refl => exact .refl f _
  | tail steps step ih =>
    refine ih.trans ?_
    cases step with
    | quiet quiet =>
      cases quiet with
      | append g may => exact bears.grown may
      | relock | touch | evict | load | scribble => exact .refl f _
    | discard | store => exact .refl f _
    | write p frame g there file size =>
      exact .inl ((tends.steps bears steps).size_wroteBack there file)

/-! ## Rows -/

/-- What a page of the file holds, after a quiet step. -/
theorem keeps_quiet (bears : f.Bears grow) (file : e.catalog.file p.table = .ok f)
    (quiet : Quiet grow e e') (intact : ¬f.Overrun e'.volume p.number) (slot : SlotId) :
    e.Keeps e' p ∧ e'.seen ⟨p, slot⟩ = e.seen ⟨p, slot⟩ := by
  have intact' : ¬f.Overrun e.volume p.number := fun hit =>
    intact ((tends.grown bears (.single (.quiet quiet))).overrun hit)
  have came := quiet.recached p
  cases quiet with
  | append g may =>
    have read : readPage { e with volume := (g.appendPage e.volume).2 } p
        = f.readPage (g.appendPage e.volume).2 p := readPage_of_file file
    have frame : frame? { e with volume := (g.appendPage e.volume).2 } p = e.frame? p := rfl
    rw [Keeps, seen, seen, pageSeen, pageSeen, frame, read, readPage_of_file file]
    rcases bears.readPage_append may p intact with same | ⟨⟨cause, missing⟩, new⟩
    · rw [same]
      exact ⟨.inl rfl, rfl⟩
    · refine ⟨.inr ⟨⟨cause, missing⟩, f, file, new⟩, ?_⟩
      cases e.frame? p with
      | some frame => rfl
      | none =>
        dsimp only
        rw [new, missing]
        exact HeapFile.rowAt_emptyPage ..
  | relock | touch | evict | load | scribble =>
    exact ⟨.inl rfl, came.seen_eq rfl (tends.matches_of file intact')⟩

/-- **Quiet steps change no row** of the table: not as it is stored, and not as it is
seen. -/
theorem quietly (bears : f.Bears grow) (file : e.catalog.file p.table = .ok f)
    (quietly : Quietly grow e e') (intact : ¬f.Overrun e'.volume p.number) (slot : SlotId) :
    e.Keeps e' p ∧ e'.seen ⟨p, slot⟩ = e.seen ⟨p, slot⟩ := by
  induction quietly with
  | refl => exact ⟨.inl rfl, rfl⟩
  | tail before quiet ih =>
    have steps := Quietly.steps before
    have tends' := tends.steps bears steps
    have catalog := Steps.catalog steps
    obtain ⟨kept, seen⟩ := tends'.keeps_quiet bears (catalog ▸ file) quiet intact slot
    obtain ⟨kept', seen'⟩ := ih fun hit =>
      intact ((tends'.grown bears (.single (.quiet quiet))).overrun hit)
    exact ⟨kept'.trans catalog kept, seen.trans seen'⟩

end Tends

/-! ## The pages of the file -/

/-- **An engine that has a file at hand**: it tends the file, the catalog names it, and its
last page is not cut short. -/
structure Hosts (e : Engine) (f : HeapFile) : Prop where
  orderly : e.Orderly
  tends : e.Tends f
  file : e.catalog.file f.table = .ok f
  whole : f.Whole e.volume

namespace Hosts

variable {n : UInt32} (hosts : e.Hosts f)

include hosts

/-- A page that is counted is there. -/
theorem lt_pages (counted : n < f.pageCount e.volume) : n.toNat < f.pages e.volume :=
  Nat.lt_of_lt_of_le (UInt32.lt_iff_toNat_lt.1 counted) hosts.whole.toNat_pageCount_le

/-- **A page of the file is seen**, as a state of a page of the file. -/
theorem pageSeen (there : n.toNat < f.pages e.volume) :
    ∃ q, e.pageSeen ⟨f.table, n⟩ = .ok q ∧ f.Fits e.volume ⟨f.table, n⟩ q := by
  have seen : ∃ q, e.pageSeen ⟨f.table, n⟩ = .ok q := by
    cases cached : e.frame? ⟨f.table, n⟩ with
    | some frame => exact ⟨_, pageSeen_of_frame cached⟩
    | none =>
      rw [pageSeen_of_absent cached, readPage_of_file (p := ⟨f.table, n⟩) hosts.file]
      exact HeapFile.isOk_readPage_iff.2 ⟨rfl, there⟩
  exact seen.imp fun q shown => ⟨shown, hosts.tends.fits_of_pageSeen rfl shown⟩

end Hosts

end Engine

end Tablespace
