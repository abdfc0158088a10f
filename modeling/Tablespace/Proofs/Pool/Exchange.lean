import Tablespace.Proofs.Disk.Contents
import Tablespace.Proofs.Locks.Refusal
import Tablespace.Proofs.Pool.Outcome

/-!
# Two ends in either order

Two transactions that end, one after the other, leave the same whichever ends first. Each of them
ends with the pages that it has changed itself, and no page was changed by both. What is left to be
told apart are the files: a page is read from a file, and pages are written to files, and two pages
of the cache can be one place of one file, if two tables were registered with it. So everything is
told byte by byte. A byte that no page of one transaction owns is as the other leaves it, and a
byte that one of its pages owns is as that page was, whatever the file held before.
-/

namespace Tablespace

/-! ## Locks -/

namespace LockTable

variable {l l' : LockTable} {t u : TxnId}

/-- **Tables that say the same**, page by page. -/
structure Same (l l' : LockTable) : Prop where
  exclusive : ∀ page, l.exclusive.get? page = l'.exclusive.get? page
  shared : ∀ page t, t ∈ l.shared.group page ↔ t ∈ l'.shared.group page
  held : l.held = l'.held
  waits : l.waits = l'.waits

/-- Who holds a page shared is told by the modes. -/
theorem Sound.mem_shared_iff (sound : l.Sound) {page : PageId} :
    t ∈ l.shared.group page ↔ l.mode? t page = some .shared := by
  unfold mode?
  split
  · rename_i mine
    simp [sound.alone page t mine]
  · split <;> simp [*]

/-- The index forgets a transaction that has given up all its locks. -/
theorem held_releaseAll : (l.releaseAll t).held = l.held.erase t :=
  held_foldl_remove (l := { l with held := l.held.erase t }) _

/-- **Two transactions give up all their locks** in either order. -/
theorem Sound.releaseAll_comm (sound : l.Sound) (t u : TxnId) :
    ((l.releaseAll t).releaseAll u).Same ((l.releaseAll u).releaseAll t) := by
  have modes : ((l.releaseAll t).releaseAll u).mode? = ((l.releaseAll u).releaseAll t).mode? := by
    rw [sound.releaseAll.mode?_releaseAll, sound.mode?_releaseAll,
      sound.releaseAll.mode?_releaseAll, sound.mode?_releaseAll]
    funext w q
    simp only [LockModes.without]
    split <;> split <;> rfl
  exact
    { exclusive := fun page => Option.ext fun w => by
        rw [← mode?_eq_exclusive_iff, ← mode?_eq_exclusive_iff, modes]
      shared := fun page w => by
        rw [sound.releaseAll.releaseAll.mem_shared_iff, sound.releaseAll.releaseAll.mem_shared_iff,
          modes]
      held := by
        simp only [held_releaseAll, Assoc.erase, List.filter_filter, Bool.and_comm]
      waits := by
        simp only [waits_releaseAll, WaitGraph.drop, List.filter_filter, Bool.and_comm] }

end LockTable

/-! ## Bytes -/

/-- **A page of a file is told by its bytes**, and by how long the file is. -/
theorem PageFile.read?_congr {file file' : FileImage} {size : Nat} {n : UInt32} (pos : 0 < size)
    (same : file'.size = file.size)
    (bytes : ∀ i, n.toNat * size ≤ i → i < n.toNat * size + size →
      file'.toList[i]? = file.toList[i]?) : read? file' size n = read? file size n := by
  by_cases covers : Covers file size n
  · have covers' : Covers file' size n := by
      rw [Covers, same]
      exact covers
    rw [read?_of_covers pos covers, read?_of_covers pos covers']
    refine congrArg (fun l : List UInt8 => some l.toArray) (List.ext_getElem? fun i => ?_)
    rw [List.getElem?_take, List.getElem?_take, List.getElem?_drop, List.getElem?_drop]
    split
    · exact bytes _ (by omega) (by omega)
    · rfl
  · have uncovered : ¬Covers file' size n := by
      rw [Covers, same]
      exact covers
    rw [read?_of_not_covers pos covers, read?_of_not_covers pos uncovered]

namespace Volume

/-- **A byte of a file.** -/
def byte? (v : Volume) (path : Path) (i : Nat) : Option UInt8 :=
  (v.content path).toList[i]?

end Volume

namespace Catalog

variable {c : Catalog} {v w : Volume} {p q : PageId}

/-- **Two pages have a byte of a file in common.** -/
def Overlap (c : Catalog) (p q : PageId) : Prop :=
  ∃ path i, c.Owns p path i ∧ c.Owns q path i

/-- Pages have no byte in common if the tables have files of their own. -/
theorem Apart.not_overlap (apart : c.Apart) (other : p ≠ q) : ¬c.Overlap p q := by
  rintro ⟨path, i, ⟨f, file, rfl, low, high⟩, g, file', path, low', high'⟩
  have table := apart _ _ _ _ file' file path
  rw [table, file] at file'
  obtain rfl := Except.ok.inj file'
  have number : p.number ≠ q.number := fun same => other (by
    cases p
    cases q
    exact congrArg₂ PageId.mk table.symm same)
  have disjoint : p.number.toNat * f.pageSize + f.pageSize ≤ q.number.toNat * f.pageSize
      ∨ q.number.toNat * f.pageSize + f.pageSize ≤ p.number.toNat * f.pageSize :=
    PageFile.mul_add_le_of_ne number
  omega

/-- **A page is told by its bytes**, and by how long its file is. -/
theorem readPage_congr (sizes : ∀ path, (w.content path).size = (v.content path).size)
    (bytes : ∀ path i, c.Owns p path i → w.byte? path i = v.byte? path i) :
    c.readPage w p = c.readPage v p := by
  cases file : c.file p.table with
  | error cause =>
    unfold readPage
    rw [file]
    rfl
  | ok f =>
    rw [readPage_of_file file, readPage_of_file file]
    refine HeapFile.readPage_congr
      (PageFile.read?_congr f.pageSize_pos (sizes f.path) fun i low high => ?_)
    exact bytes f.path i ⟨f, file, rfl, low, high⟩

end Catalog

namespace Engine

variable {e : Engine} {v w : Volume} {p : PageId} {frame : Frame} {pages ps qs : List PageId}
  {path : Path} {i : Nat}

/-- **Pages of the cache that are pages of the files** of a volume. -/
def FitsIn (e : Engine) (v : Volume) (pages : List PageId) : Prop :=
  ∀ p ∈ pages, ∃ frame, e.frame? p = some frame ∧ e.catalog.Fits v p frame.page

/-- **The files of a volume with pages of the cache written.** -/
def writtenTo (e : Engine) (v : Volume) (pages : List PageId) : Volume :=
  pages.foldl e.writing v

theorem pageBytes_eq (e : Engine) (p : PageId) :
    e.pageBytes p = ((e.page? p).map (·.image.toList)).getD [] := by
  rw [pageBytes, page?, Option.map_map]
  rfl

theorem FitsIn.mono (fits : e.FitsIn v pages) (grows : v.Grows w) : e.FitsIn w pages :=
  fun p hp => (fits p hp).imp fun _ => And.imp_right (·.mono grows)

/-- No file becomes shorter. -/
theorem grows_writing (v : Volume) (p : PageId) : v.Grows (e.writing v p) := by
  unfold writing
  split
  · exact HeapFile.grows_writeAt
  · exact fun _ => Nat.le_refl _

theorem grows_writtenTo (v : Volume) (pages : List PageId) : v.Grows (e.writtenTo v pages) := by
  induction pages generalizing v with
  | nil => exact fun _ => Nat.le_refl _
  | cons p pages ih =>
    exact fun path => Nat.le_trans (grows_writing v p path) (ih (e.writing v p) path)

section Writing

variable (there : e.frame? p = some frame) (fits : e.catalog.Fits v p frame.page)

include there fits

/-- A page is written to the file of its table. -/
theorem writing_eq : ∃ f, e.catalog.file p.table = .ok f
    ∧ e.writing v p = f.writeAt v p.number frame.page.image.toList := by
  obtain ⟨f, file⟩ := fits.file
  refine ⟨f, file, ?_⟩
  rw [writing, file, pageBytes, there]
  rfl

/-- No file becomes longer. -/
theorem size_writing (path : Path) :
    ((e.writing v p).content path).size = (v.content path).size := by
  obtain ⟨f, file, is⟩ := writing_eq there fits
  rw [is]
  exact fits.size_writeAt file path

/-- **A byte that the page does not own** is as it was. -/
theorem byte?_writing_of_not_owns (outside : ¬e.catalog.Owns p path i) :
    (e.writing v p).byte? path i = v.byte? path i := by
  obtain ⟨f, file, is⟩ := writing_eq there fits
  rw [is]
  exact fits.getElem?_writeAt file outside

/-- **A byte that the page owns** is one of the page, whatever the file held. -/
theorem byte?_writing_of_owns {f : HeapFile} (file : e.catalog.file p.table = .ok f)
    (owns : e.catalog.Owns p path i) : (e.writing v p).byte? path i
      = frame.page.image.toList[i - p.number.toNat * f.pageSize]? := by
  obtain ⟨g, file', is⟩ := writing_eq there fits
  obtain ⟨h, file'', rfl, low, high⟩ := owns
  rw [file] at file' file''
  obtain rfl := Except.ok.inj file'
  obtain rfl := Except.ok.inj file''
  have length := (fits.fits file).length
  rw [is, Volume.byte?, HeapFile.writeAt, Volume.content_put, if_pos rfl,
    PageFile.getElem?_write length, if_pos ⟨low, high⟩]

end Writing

/-- No file becomes longer by pages that are written. -/
theorem size_writtenTo (fits : e.FitsIn v pages) (path : Path) :
    ((e.writtenTo v pages).content path).size = (v.content path).size := by
  induction pages generalizing v with
  | nil => rfl
  | cons p pages ih =>
    obtain ⟨first, rest⟩ := List.forall_mem_cons.1 fits
    obtain ⟨frame, there, fit⟩ := first
    exact (ih (FitsIn.mono rest (grows_writing v p))).trans (size_writing there fit path)

/-- **A byte that no page owns** that is written is as it was. -/
theorem byte?_writtenTo_of_not_owns (fits : e.FitsIn v pages)
    (outside : ∀ p ∈ pages, ¬e.catalog.Owns p path i) :
    (e.writtenTo v pages).byte? path i = v.byte? path i := by
  induction pages generalizing v with
  | nil => rfl
  | cons p pages ih =>
    obtain ⟨first, rest⟩ := List.forall_mem_cons.1 fits
    obtain ⟨frame, there, fit⟩ := first
    obtain ⟨out, later⟩ := List.forall_mem_cons.1 outside
    exact (ih (FitsIn.mono rest (grows_writing v p)) later).trans
      (byte?_writing_of_not_owns there fit out)

/-- **A byte is the same in two volumes** after the same pages were written, if it was so before.
A page that owns it makes it so. -/
theorem byte?_writtenTo_congr (fits : e.FitsIn v pages) (fits' : e.FitsIn w pages)
    (same : v.byte? path i = w.byte? path i) :
    (e.writtenTo v pages).byte? path i = (e.writtenTo w pages).byte? path i := by
  induction pages generalizing v w with
  | nil => exact same
  | cons p pages ih =>
    obtain ⟨⟨frame, there, fit⟩, rest⟩ := List.forall_mem_cons.1 fits
    obtain ⟨⟨frame', there', fit'⟩, rest'⟩ := List.forall_mem_cons.1 fits'
    refine ih (FitsIn.mono rest (grows_writing v p)) (FitsIn.mono rest' (grows_writing w p)) ?_
    obtain rfl := Option.some.inj (there.symm.trans there')
    by_cases owns : e.catalog.Owns p path i
    · obtain ⟨f, file⟩ := fit.file
      rw [byte?_writing_of_owns there fit file owns, byte?_writing_of_owns there fit' file owns]
    · rw [byte?_writing_of_not_owns there fit owns, byte?_writing_of_not_owns there fit' owns, same]

/-- **Pages are written in either order** to a byte that one half of them does not own. -/
theorem byte?_writtenTo_comm (fitsP : e.FitsIn v ps) (fitsQ : e.FitsIn v qs)
    (apart : (∀ p ∈ ps, ¬e.catalog.Owns p path i) ∨ ∀ q ∈ qs, ¬e.catalog.Owns q path i) :
    (e.writtenTo (e.writtenTo v ps) qs).byte? path i
      = (e.writtenTo (e.writtenTo v qs) ps).byte? path i := by
  have fitsP' : e.FitsIn (e.writtenTo v qs) ps := fitsP.mono (grows_writtenTo v qs)
  have fitsQ' : e.FitsIn (e.writtenTo v ps) qs := fitsQ.mono (grows_writtenTo v ps)
  rcases apart with outP | outQ
  · rw [byte?_writtenTo_of_not_owns fitsP' outP]
    exact byte?_writtenTo_congr fitsQ' fitsQ (byte?_writtenTo_of_not_owns fitsP outP)
  · rw [byte?_writtenTo_of_not_owns fitsQ' outQ]
    exact (byte?_writtenTo_congr fitsP' fitsP (byte?_writtenTo_of_not_owns fitsQ outQ)).symm

/-! ## Two ends, one after the other -/

section Ends

variable {e' e₁ e₂ e₁₂ e₂₁ : Engine} {t u : TxnId} {c d : Bool}

/-- The pages that a transaction writes at its end are pages of the files. -/
theorem Fitting.fitsIn_commits (fitting : e.Fitting) (t : TxnId) (c : Bool) :
    e.FitsIn e.volume (e.commits t c) := fun p hp => by
  obtain ⟨frame, there, -⟩ := dirtyFor_of_mem_commits hp
  exact ⟨frame, there, fitting p frame there⟩

namespace Outcome

section Other

variable (outcome : Outcome t c e e') (other : u ≠ t)

include outcome other

/-- Another transaction still writes the pages that it would have written, -/
theorem commits_eq (d : Bool) : e'.commits u d = e.commits u d := by
  rw [commits, commits, outcome.dirtied_eq other]

/-- and reads those again that it would have read. -/
theorem reverts_eq (d : Bool) : e'.reverts u d = e.reverts u d := by
  rw [reverts, reverts, outcome.dirtied_eq other]

/-- Its pages are as they were. -/
theorem page?_of_dirtyFor (mine : e.DirtyFor u p) : e'.page? p = e.page? p :=
  outcome.page?_of_not_dirtyFor fun his => other (mine.unique his)

/-- They are written in the same way. -/
theorem writtenTo_commits (v : Volume) (d : Bool) :
    e'.writtenTo v (e.commits u d) = e.writtenTo v (e.commits u d) := by
  refine List.foldl_ext _ _ _ fun v p hp => ?_
  have same := outcome.page?_of_dirtyFor other (dirtyFor_of_mem_commits hp)
  rw [writing, writing, pageBytes_eq, pageBytes_eq, same, outcome.catalog]

end Other

/-- **The files after two ends**, one after the other. -/
theorem volume_two (first : Outcome t c e e₁) (second : Outcome u d e₁ e₁₂) (other : u ≠ t) :
    e₁₂.volume = e.writtenTo (e.writtenTo e.volume (e.commits t c)) (e.commits u d) := by
  have later : e₁₂.volume = e₁.writtenTo e₁.volume (e₁.commits u d) := second.volume
  rw [later, first.commits_eq other, first.writtenTo_commits other, first.volume]
  rfl

/-- **The order of the cache after two ends**: the pages that are read again are the last. -/
theorem order_two (first : Outcome t c e e₁) (second : Outcome u d e₁ e₁₂) (other : u ≠ t) :
    e₁₂.cache.pages = e.cache.pages.filter (fun p => p ∉ e.reverts t c ∧ p ∉ e.reverts u d)
      ++ e.reverts t c ++ e.reverts u d := by
  have apart : (e.reverts t c).filter (· ∉ e.reverts u d) = e.reverts t c :=
    List.filter_eq_self.2 fun p hp => decide_eq_true fun his =>
      other ((dirtyFor_of_mem_reverts his).unique (dirtyFor_of_mem_reverts hp))
  rw [second.order, first.reverts_eq other, first.order, List.filter_append, apart,
    List.filter_filter]
  simp only [← Bool.decide_and, and_comm]

end Outcome

/-- A page that a transaction had changed is as its end left it, whoever ends after it. -/
theorem Outcome.page?_first (first : Outcome t c e e₁) (second : Outcome u d e₁ e₁₂)
    (other : u ≠ t) (mine : e.DirtyFor t p) : e₁₂.page? p
      = if p ∈ e.commits t c then (e.page? p).map (·.markDirty none)
        else (e.readPage p).toOption := by
  have his : ¬e₁.DirtyFor u p := fun his => other (((first.dirtyFor_iff other).1 his).unique mine)
  rw [second.page?_of_not_dirtyFor his, first.page?]
  split
  · rfl
  · rename_i unwritten
    rw [if_pos ((mem_commits_or_reverts c mine).resolve_left unwritten)]

/-- Its end leaves it as if nobody had ended before, but for what is read again. -/
theorem Outcome.page?_second (first : Outcome u d e e₂) (second : Outcome t c e₂ e₂₁)
    (other : u ≠ t) (mine : e.DirtyFor t p) : e₂₁.page? p
      = if p ∈ e.commits t c then (e.page? p).map (·.markDirty none)
        else (e₂.readPage p).toOption := by
  rw [second.page?, first.commits_eq other.symm, first.reverts_eq other.symm,
    first.page?_of_dirtyFor other.symm mine]
  split
  · rfl
  · rename_i unwritten
    rw [if_pos ((mem_commits_or_reverts c mine).resolve_left unwritten)]

namespace Outcome

/-- A page is read from the files as before if no page was written that it has a byte in common
with. -/
theorem readPage_eq (outcome : Outcome t c e e') (fitting : e.Fitting)
    (apart : ∀ q ∈ e.commits t c, ¬e.catalog.Overlap p q) : e'.readPage p = e.readPage p := by
  have fits := fitting.fitsIn_commits t c
  have volume : e'.volume = e.writtenTo e.volume (e.commits t c) := outcome.volume
  show e'.catalog.readPage e'.volume p = e.catalog.readPage e.volume p
  rw [outcome.catalog, volume]
  exact Catalog.readPage_congr (size_writtenTo fits) fun path i mine =>
    byte?_writtenTo_of_not_owns fits fun q hq its => apart q hq ⟨path, i, mine, its⟩

/-- A page that the transaction had changed is in the cache, and clean. -/
theorem dirtier_eq_none (outcome : Outcome t c e e') (fitting : e.Fitting)
    (mine : e.DirtyFor t p) : (e'.page? p).map (·.dirtier) = some none := by
  obtain ⟨page, there, -⟩ := dirtyFor_iff_page?.1 mine
  rw [outcome.page?]
  split
  · rw [there]
    rfl
  · rename_i unwritten
    rw [if_pos ((mem_commits_or_reverts c mine).resolve_left unwritten)]
    obtain ⟨d, read, -⟩ : ∃ d, e.readPage p = .ok d ∧ d.Alike page := fitting.fits there
    rw [read]
    exact congrArg some (of_readPage read).2

section Two

variable (first : Outcome t c e e₁) (second : Outcome u d e₁ e₁₂) (first' : Outcome u d e e₂)
  (second' : Outcome t c e₂ e₂₁) (other : u ≠ t) (fitting : e.Fitting) (mine : e.DirtyFor t p)

include first second first' second' other fitting mine

/-- **A page that a transaction had changed** is clean, whether it ends first or second. -/
theorem dirtier_two : (e₁₂.page? p).map (·.dirtier) = (e₂₁.page? p).map (·.dirtier) := by
  have his : ¬e₁.DirtyFor u p := fun his => other (((first.dirtyFor_iff other).1 his).unique mine)
  have still : e₂.DirtyFor t p := (first'.dirtyFor_iff other.symm).2 mine
  have grows : e.volume.Grows e₂.volume := by
    rw [first'.volume]
    exact grows_writtenTo _ _
  rw [second.page?_of_not_dirtyFor his, first.dirtier_eq_none fitting mine,
    second'.dirtier_eq_none (first'.fitting fitting grows) still]

/-- **It is the same page**, unless it is read again where the other has written. -/
theorem page?_two (apart : p ∈ e.reverts t c → ∀ q ∈ e.commits u d, ¬e.catalog.Overlap p q) :
    e₁₂.page? p = e₂₁.page? p := by
  rw [first.page?_first second other mine, first'.page?_second second' other mine]
  split
  · rfl
  · rename_i unwritten
    rw [first'.readPage_eq fitting (apart ((mem_commits_or_reverts c mine).resolve_left unwritten))]

end Two

end Outcome

/-- **Two ends come to the same**, of one transaction and then another and the other way round. -/
structure Exchanged (t u : TxnId) (c d : Bool) (e e₁₂ e₂₁ : Engine) : Prop where
  /-- The lock tables say the same. -/
  locks : e₁₂.locks.Same e₂₁.locks
  /-- The files are as long. -/
  sizes : ∀ path, (e₁₂.volume.content path).size = (e₂₁.volume.content path).size
  /-- They hold the same, but for bytes that are of a page that the one writes and of a page that
  the other writes. -/
  bytes : ∀ path i, (∀ p ∈ e.commits t c, ∀ q ∈ e.commits u d,
      ¬(e.catalog.Owns p path i ∧ e.catalog.Owns q path i)) →
    e₁₂.volume.byte? path i = e₂₁.volume.byte? path i
  /-- The same pages are in the cache, in the same order but for those that are read again. -/
  order : ∃ kept, e₁₂.cache.pages = kept ++ e.reverts t c ++ e.reverts u d
    ∧ e₂₁.cache.pages = kept ++ e.reverts u d ++ e.reverts t c
  /-- They are dirty for the same transactions. -/
  dirtiers : ∀ p, (e₁₂.page? p).map (·.dirtier) = (e₂₁.page? p).map (·.dirtier)
  /-- They are the same pages, but for those that are read again by the one and have a byte in
  common with a page that the other writes. -/
  pages : ∀ p, (p ∈ e.reverts t c → ∀ q ∈ e.commits u d, ¬e.catalog.Overlap p q) →
    (p ∈ e.reverts u d → ∀ q ∈ e.commits t c, ¬e.catalog.Overlap p q) →
    e₁₂.page? p = e₂₁.page? p

/-- **Two transactions end in either order.** -/
theorem Outcome.exchanged (first : Outcome t c e e₁) (second : Outcome u d e₁ e₁₂)
    (first' : Outcome u d e e₂) (second' : Outcome t c e₂ e₂₁) (other : u ≠ t)
    (fitting : e.Fitting) (sound : e.locks.Sound) : Exchanged t u c d e e₁₂ e₂₁ := by
  have fitsT := fitting.fitsIn_commits t c
  have fitsU := fitting.fitsIn_commits u d
  have volume := first.volume_two second other
  have volume' := first'.volume_two second' other.symm
  have untouched {p : PageId} (notT : ¬e.DirtyFor t p) (notU : ¬e.DirtyFor u p) :
      e₁₂.page? p = e₂₁.page? p := by
    rw [second.page?_of_not_dirtyFor (mt (first.dirtyFor_iff other).1 notU),
      first.page?_of_not_dirtyFor notT,
      second'.page?_of_not_dirtyFor (mt (first'.dirtyFor_iff other.symm).1 notT),
      first'.page?_of_not_dirtyFor notU]
  exact
    { locks := by
        rw [second.locks, first.locks, second'.locks, first'.locks]
        exact sound.releaseAll_comm t u
      sizes := fun path => by
        rw [volume, volume', size_writtenTo (fitsU.mono (grows_writtenTo _ _)),
          size_writtenTo fitsT, size_writtenTo (fitsT.mono (grows_writtenTo _ _)),
          size_writtenTo fitsU]
      bytes := fun path i uncontested => by
        rw [volume, volume']
        refine byte?_writtenTo_comm fitsT fitsU ?_
        by_cases outside : ∀ p ∈ e.commits t c, ¬e.catalog.Owns p path i
        · exact .inl outside
        · exact .inr fun q hq owns' => outside fun p hp owns => uncontested p hp q hq ⟨owns, owns'⟩
      order := by
        refine ⟨_, first.order_two second other, ?_⟩
        rw [first'.order_two second' other.symm]
        simp only [and_comm]
      dirtiers := fun p => by
        by_cases mine : e.DirtyFor t p
        · exact first.dirtier_two second first' second' other fitting mine
        · by_cases his : e.DirtyFor u p
          · exact (first'.dirtier_two second' first second other.symm fitting his).symm
          · rw [untouched mine his]
      pages := fun p apartT apartU => by
        by_cases mine : e.DirtyFor t p
        · exact first.page?_two second first' second' other fitting mine apartT
        · by_cases his : e.DirtyFor u p
          · exact (first'.page?_two second' first second other.symm fitting his apartU).symm
          · exact untouched mine his }

/-- **Nothing is left to be told apart** if the tables have files of their own. -/
theorem Exchanged.all_of_apart (exchanged : Exchanged t u c d e e₁₂ e₂₁) (apart : e.catalog.Apart)
    (other : u ≠ t) :
    (∀ path, (e₁₂.volume.content path).toList = (e₂₁.volume.content path).toList)
      ∧ ∀ p, e₁₂.page? p = e₂₁.page? p := by
  have distinct {p q : PageId} (mine : e.DirtyFor t p) (his : e.DirtyFor u q) :
      ¬e.catalog.Overlap p q := apart.not_overlap fun same => other ((same ▸ his).unique mine)
  refine ⟨fun path => List.ext_getElem? fun i => exchanged.bytes path i fun p hp q hq owns => ?_,
    fun p => exchanged.pages p (fun hp q hq => ?_) fun hp q hq overlap => ?_⟩
  · exact distinct (dirtyFor_of_mem_commits hp) (dirtyFor_of_mem_commits hq) ⟨path, i, owns⟩
  · exact distinct (dirtyFor_of_mem_reverts hp) (dirtyFor_of_mem_commits hq)
  · obtain ⟨path, i, owns, owns'⟩ := overlap
    exact distinct (dirtyFor_of_mem_commits hq) (dirtyFor_of_mem_reverts hp) ⟨path, i, owns', owns⟩

end Ends

end Engine

end Tablespace
