import Tablespace.Proofs.Engine.View

/-!
# Pages and where they come from

A table can be taken out of the catalog while its pages are in the cache, and
while transactions have changed them. The pages are still pages of a file, but
the engine no longer finds it. To speak of that file, there is a second
catalog, the **home** of all tables that were ever registered. It never forgets
a table, and no table has two files.

An engine is **anchored** at home (`Engine.Anchored`) if every table of its
catalog has the file that it has at home, and every page in its cache is a
state of a page of such a file, registered or not. This is less than coherence
(`Engine.Coherent`): nothing is said of who has changed a page, of locks on it,
or of the bytes that it holds. So it is kept by whatever is done to an engine,
in whichever order, as long as no file becomes shorter.
-/

namespace Tablespace

namespace Volume

/-- **No file becomes shorter.** -/
def Grows (v w : Volume) : Prop :=
  ∀ path, (v.content path).size ≤ (w.content path).size

end Volume

namespace HeapFile

variable {f : HeapFile} {v w : Volume} {n : UInt32} {bytes : List UInt8} {p : PageId} {q : Page}

theorem pages_le_of_grows (grows : v.Grows w) : f.pages v ≤ f.pages w :=
  Nat.div_le_div_right (grows f.path)

/-- A file that is written does not become shorter. -/
theorem grows_writeAt : v.Grows (f.writeAt v n bytes) := by
  intro path
  rw [writeAt, Volume.content_put]
  split
  · rename_i same
    rw [same, PageFile.write, PageFile.writeAt]
    split
    · exact Nat.le_refl _
    · rw [FileImage.size_write]
      exact Nat.le_max_left ..
  · exact Nat.le_refl _

/-- **A page that is written** is written to the place that it is named
for. -/
theorem writePage_of_table (table : q.id.table = f.table) (size : q.image.size = f.pageSize) :
    f.writePage v q = .ok (f.writeAt v q.id.number q.image.toList) := by
  rw [writePage, checkTable, if_pos table, if_pos size]
  rfl

/-- A file does not become shorter by a page that is written. -/
theorem grows_writePage (h : f.writePage v q = .ok w) : v.Grows w := by
  unfold writePage at h
  cases checked : f.checkTable q.id with
  | error cause => rw [checked] at h; cases h
  | ok _ =>
    rw [checked] at h
    dsimp only at h
    split at h
    · cases h
      exact grows_writeAt
    · cases h

/-! ## Pages that fit -/

/-- **A state of a page of the file.** -/
def Fits (f : HeapFile) (v : Volume) (p : PageId) (q : Page) : Prop :=
  ∃ d, f.readPage v p = .ok d ∧ d.Alike q

theorem fits_of_readPage {d : Page} (h : f.readPage v p = .ok d) : f.Fits v p d :=
  ⟨d, h, .refl d⟩

/-- A page that has changed is a state of the same page. -/
theorem Fits.alike {q' : Page} (fits : f.Fits v p q) (alike : q.Alike q') : f.Fits v p q' :=
  fits.imp fun _ => And.imp_right (·.trans alike)

section Fits

variable (fits : f.Fits v p q)

include fits

theorem Fits.id : q.id = p := by
  obtain ⟨d, read, alike⟩ := fits
  obtain ⟨table, image, size, -, rfl⟩ := readPage_eq_ok_iff.1 read
  rw [alike.id, page, ← table]

/-- **A page fits into its file**, in a place that the file has. -/
theorem Fits.place : p.table = f.table ∧ p.number.toNat < f.pages v ∧ q.image.size = f.pageSize
    ∧ q.schema = f.schema := by
  obtain ⟨d, read, alike⟩ := fits
  have place := isOk_readPage_iff.1 ⟨d, read⟩
  obtain ⟨-, image, size, -, rfl⟩ := readPage_eq_ok_iff.1 read
  exact ⟨place.1, place.2, alike.size.trans size, alike.schema⟩

/-- **A page stays a state of a page** as long as the file has its place. -/
theorem Fits.mono (less : f.pages v ≤ f.pages w) : f.Fits w p q := by
  obtain ⟨table, place, size, schema⟩ := fits.place
  obtain ⟨d, read⟩ := isOk_readPage_iff.2 ⟨table, Nat.lt_of_lt_of_le place less⟩
  have name : d.id = p := (fits_of_readPage read).id
  refine ⟨d, read, ?_⟩
  obtain ⟨-, image, length, -, rfl⟩ := readPage_eq_ok_iff.1 read
  exact ⟨fits.id.trans name.symm, schema, size.trans length.symm⟩

theorem Fits.length : q.image.toList.length = f.pageSize := by
  simpa using fits.place.2.2.1

/-- The bytes that are written are those of the page, marked clean. -/
theorem Fits.page_eq : f.page p.number q.image.toList.toArray (by simpa using fits.length)
    = q.markDirty none := by
  obtain ⟨table, -, -, schema⟩ := fits.place
  have name := fits.id
  cases q with | mk id s i dirtier pos le =>
  dsimp only at name schema
  subst name schema
  simp only [page, Page.markDirty, Array.toArray_toList]
  rw [← table]

/-- **A page that fits is written.** -/
theorem Fits.writePage : f.writePage v q = .ok (f.writeAt v p.number q.image.toList) := by
  obtain ⟨table, -, size, -⟩ := fits.place
  rw [writePage_of_table (fits.id ▸ table) size, fits.id]

/-- **The page of the file that is written** is the page, marked clean; the
others are as they were. -/
theorem Fits.readPage_writeAt (r : PageId) :
    f.readPage (f.writeAt v p.number q.image.toList) r
      = if r = p then .ok (q.markDirty none) else f.readPage v r := by
  obtain ⟨table, next, -, -⟩ := fits.place
  rw [HeapFile.readPage_writeAt fits.length (Nat.le_of_lt next), fits.page_eq, ← table]

/-- No file becomes longer. -/
theorem Fits.size_writeAt (path : Path) :
    ((f.writeAt v p.number q.image.toList).content path).size = (v.content path).size := by
  by_cases same : path = f.path
  · rw [same]
    exact size_writeAt_of_lt fits.length fits.place.2.1
  · rw [writeAt, Volume.content_put, if_neg same]

end Fits

end HeapFile

namespace Catalog

variable {c : Catalog} {v w : Volume} {p : PageId} {q q' d : Page} {f : HeapFile}

/-- **A state of a page of a file.** -/
def Fits (c : Catalog) (v : Volume) (p : PageId) (q : Page) : Prop :=
  ∃ d, c.readPage v p = .ok d ∧ d.Alike q

theorem fits_of_readPage (h : c.readPage v p = .ok d) : c.Fits v p d :=
  ⟨d, h, .refl d⟩

/-- **A byte of a file that belongs to a page.** -/
def Owns (c : Catalog) (p : PageId) (path : Path) (i : Nat) : Prop :=
  ∃ f, c.file p.table = .ok f ∧ f.path = path ∧ p.number.toNat * f.pageSize ≤ i
    ∧ i < p.number.toNat * f.pageSize + f.pageSize

/-- A page that has changed is a state of the same page. -/
theorem Fits.alike (fits : c.Fits v p q) (alike : q.Alike q') : c.Fits v p q' :=
  fits.imp fun _ => And.imp_right (·.trans alike)

theorem Fits.id (fits : c.Fits v p q) : q.id = p := by
  obtain ⟨d, read, alike⟩ := fits
  rw [alike.id, (of_readPage read).1]

/-- **A page fits into the file of its table.** -/
theorem Fits.fits (fits : c.Fits v p q) (file : c.file p.table = .ok f) : f.Fits v p q :=
  fits.imp fun _ => And.imp_left fun read => (readPage_of_file file).symm.trans read

/-- The file of a page that is a state of one. -/
theorem Fits.file (fits : c.Fits v p q) : ∃ f, c.file p.table = .ok f := by
  obtain ⟨d, read, -⟩ := fits
  exact (file_of_readPage read).imp fun _ => And.left

/-- **A page stays a state of a page** while files grow. -/
theorem Fits.mono (fits : c.Fits v p q) (grows : v.Grows w) : c.Fits w p q := by
  obtain ⟨f, file⟩ := fits.file
  exact ((fits.fits file).mono (HeapFile.pages_le_of_grows grows)).imp fun _ =>
    And.imp_left (readPage_of_file file).trans

section Written

variable (fits : c.Fits v p q) (file : c.file p.table = .ok f)

include fits file

/-- **A page that fits is written.** -/
theorem Fits.writePage :
    f.writePage v q = .ok (f.writeAt v p.number q.image.toList) :=
  (fits.fits file).writePage

/-- **The page of the file that is written** is the page, marked clean; the
others are as they were. -/
theorem Fits.readPage_writeAt (apart : c.Apart) (r : PageId) :
    c.readPage (f.writeAt v p.number q.image.toList) r
      = if r = p then .ok (q.markDirty none) else c.readPage v r := by
  have fits' := fits.fits file
  obtain ⟨table, next, -, -⟩ := fits'.place
  rw [apart.readPage_writeAt (table ▸ file) fits'.length (Nat.le_of_lt next), fits'.page_eq, ← table]

/-- No file becomes longer. -/
theorem Fits.size_writeAt (path : Path) :
    ((f.writeAt v p.number q.image.toList).content path).size = (v.content path).size :=
  (fits.fits file).size_writeAt path

/-- **No byte changes** but those of the page. -/
theorem Fits.getElem?_writeAt {path : Path} {i : Nat} (outside : ¬c.Owns p path i) :
    ((f.writeAt v p.number q.image.toList).content path).toList[i]?
      = (v.content path).toList[i]? := by
  rw [HeapFile.writeAt, Volume.content_put]
  split
  · rename_i same
    subst same
    have fits' := fits.fits file
    have length := fits'.length
    have covers : p.number.toNat * f.pageSize + f.pageSize ≤ (v.content f.path).size :=
      HeapFile.covers_iff.2 fits'.place.2.1
    have apart : ¬(p.number.toNat * f.pageSize ≤ i
        ∧ i < p.number.toNat * f.pageSize + f.pageSize) := fun h => outside ⟨f, file, rfl, h⟩
    have behind : ¬i < (v.content f.path).size → (v.content f.path).toList[i]? = none := fun h =>
      List.getElem?_eq_none (by rw [FileImage.length_toList]; exact Nat.not_lt.1 h)
    rw [PageFile.write, PageFile.writeAt]
    split
    · rfl
    · rw [FileImage.getElem?_write, length, if_neg apart]
      split
      · rfl
      · rename_i beyond
        rw [behind beyond, if_neg (by omega)]
  · rfl

end Written

end Catalog

namespace Engine

variable {e : Engine} {home : Catalog} {p : PageId} {d : Page} {f : HeapFile} {table : TableId}

/-- **An engine whose pages are pages of files.** -/
structure Anchored (e : Engine) (home : Catalog) : Prop where
  /-- The tables have files of their own. -/
  apart : home.Apart
  /-- A table is registered with its file. -/
  registered : ∀ entry ∈ e.catalog.entries, home.file entry.table = .ok entry.file
  /-- The locks are sound. -/
  locks : e.locks.Sound
  /-- What is in the cache is a state of a page of a file. -/
  cached : ∀ p frame, e.frame? p = some frame → home.Fits e.volume p frame.page

/-- An engine that nobody has used has no pages that could be out of place. -/
theorem anchored_of_start {c : Config} {volume : Volume} {catalog : Catalog}
    (apart : home.Apart)
    (registered : ∀ entry ∈ catalog.entries, home.file entry.table = .ok entry.file)
    (h : start c volume catalog = .ok e) : e.Anchored home := by
  obtain rfl := eq_of_start h
  exact ⟨apart, registered, LockTable.sound_empty, fun p frame there => by simp [frame?] at there⟩

namespace Anchored

variable (anchored : e.Anchored home)

include anchored

/-- The file of a table that is registered. -/
theorem file (h : e.catalog.file table = .ok f) : home.file table = .ok f := by
  obtain ⟨entry, there, rfl, rfl⟩ := Catalog.mem_of_file h
  exact anchored.registered entry there

/-- **What is read** is the page of the file at home. -/
theorem readPage_eq (h : e.catalog.file p.table = .ok f) :
    e.readPage p = home.readPage e.volume p := by
  rw [readPage_of_file h, Catalog.readPage_of_file (anchored.file h)]

theorem fits_of_readPage (h : e.readPage p = .ok d) : home.Fits e.volume p d := by
  obtain ⟨f, file, -⟩ := file_of_readPage h
  exact Catalog.fits_of_readPage (anchored.readPage_eq file ▸ h)

/-- **A page of the cache can be read again**, if its table is registered. -/
theorem isOk_readPage {frame : Frame} (there : e.frame? p = some frame)
    (h : e.catalog.file p.table = .ok f) :
    ∃ d, e.readPage p = .ok d ∧ home.readPage e.volume p = .ok d := by
  obtain ⟨d, read, -⟩ := anchored.cached p frame there
  exact ⟨d, (anchored.readPage_eq h).trans read, read⟩

/-! ## What keeps an engine anchored -/

/-- Pages that fit may enter the cache, and any may leave it. -/
theorem recache {cache : Cache Frame} {loads : Nat}
    (pages : ∀ p frame, cache.peek? p = some frame → home.Fits e.volume p frame.page) :
    Anchored { e with cache := cache, loads := loads } home :=
  ⟨anchored.apart, anchored.registered, anchored.locks, pages⟩

theorem insert {cache : Cache Frame} {loads : Nat} {frame : Frame}
    (kept : ∀ p frame, cache.peek? p = some frame → e.frame? p = some frame)
    (fits : home.Fits e.volume p frame.page) :
    Anchored { e with cache := cache.insert p frame, loads := loads } home := by
  refine anchored.recache fun q g there => ?_
  rw [Cache.peek?_insert] at there
  split at there
  · rename_i same
    cases there
    exact same ▸ fits
  · exact anchored.cached q g (kept q g there)

theorem erase (p : PageId) : Anchored { e with cache := e.cache.erase p } home := by
  refine anchored.recache fun q frame there => ?_
  rw [Cache.peek?_erase] at there
  split at there
  · cases there
  · exact anchored.cached q frame there

theorem modify {change : Frame → Frame}
    (fits : ∀ frame, e.frame? p = some frame → home.Fits e.volume p (change frame).page) :
    Anchored { e with cache := e.cache.modify p change } home := by
  refine anchored.recache fun q frame there => ?_
  rw [Cache.peek?_modify] at there
  split at there
  · rename_i same
    subst same
    obtain ⟨old, was, rfl⟩ := Option.map_eq_some_iff.1 there
    exact fits old was
  · exact anchored.cached q frame there

/-- Locks are nothing to the pages. -/
theorem relock {locks : LockTable} (sound : locks.Sound) :
    Anchored { e with locks := locks } home :=
  ⟨anchored.apart, anchored.registered, sound, anchored.cached⟩

/-- **Files may grow.** -/
theorem grow {volume : Volume} (grows : e.volume.Grows volume) :
    Anchored { e with volume := volume } home :=
  ⟨anchored.apart, anchored.registered, anchored.locks,
    fun p frame there => (anchored.cached p frame there).mono grows⟩

/-- **A table may be registered with its file**, again or for the first time,
and under any name. -/
theorem register (file : home.file f.table = .ok f) (name : String) :
    (e.changeCatalog (·.add f name)).Anchored home := by
  refine ⟨anchored.apart, fun entry there => ?_, anchored.locks, anchored.cached⟩
  rcases Catalog.eq_or_mem_of_mem_add there with rfl | old
  · exact file
  · exact anchored.registered entry old

/-- **All tables may be forgotten.** -/
theorem clear : (e.changeCatalog fun _ => .empty).Anchored home :=
  ⟨anchored.apart, fun entry there => (by cases there), anchored.locks, anchored.cached⟩

end Anchored

end Engine

end Tablespace
