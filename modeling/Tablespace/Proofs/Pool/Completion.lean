import Tablespace.Pool.Completion
import Tablespace.Proofs.Engine.Anchored
import Tablespace.Proofs.Pool.Fetch

/-!
# What the end of a transaction does

A commit writes the pages that the transaction has changed, and an abort reads
them again. Over a coherent engine neither can fail: every page in the cache is
one of its file, and as long as the file's pages. Both leave those pages in the
cache as they are in the file (`Engine.Settled`), and the others alone.

What an end comes to is in `Engine.Ended`: by a commit, what was seen on the
pages that the transaction has changed is what is stored on them; by an abort,
nothing changes in the files. In both cases what is seen on these pages is what
is stored afterwards, and no other row is touched, stored or seen.
-/

namespace Tablespace

namespace Engine

variable {e e' : Engine} {t u : TxnId} {p q : PageId} {frame : Frame} {pages : List PageId}

/-- **Pages that are in the cache as they are in their files**, next to others
that were left alone. -/
structure Settled (pages : List PageId) (e e' : Engine) : Prop where
  coherent : e'.Coherent
  catalog : e'.catalog = e.catalog
  locks : e'.locks = e.locks
  sizes : e.SameSizes e'
  here : ∀ q ∈ pages, ∃ frame, e'.frame? q = some frame ∧ e'.readPage q = .ok frame.page
  elsewhere : ∀ q, q ∉ pages → e'.frame? q = e.frame? q ∧ e'.readPage q = e.readPage q

theorem Settled.nil (coherent : e.Coherent) : Settled [] e e :=
  ⟨coherent, rfl, rfl, fun _ _ _ => rfl, by simp, fun _ _ => ⟨rfl, rfl⟩⟩

/-- Pages that are settled one after the other are settled. -/
theorem Settled.cons {e₁ : Engine} (first : Settled [p] e e₁) (rest : Settled pages e₁ e') :
    Settled (p :: pages) e e' where
  coherent := rest.coherent
  catalog := rest.catalog.trans first.catalog
  locks := rest.locks.trans first.locks
  sizes table f h := (rest.sizes table f (first.catalog ▸ h)).trans (first.sizes table f h)
  here q hq := by
    by_cases later : q ∈ pages
    · exact rest.here q later
    · obtain ⟨frame, there, read⟩ := first.here q
        (List.mem_singleton.2 ((List.mem_cons.1 hq).resolve_right later))
      obtain ⟨sameFrame, samePage⟩ := rest.elsewhere q later
      exact ⟨frame, sameFrame.trans there, samePage.trans read⟩
  elsewhere q hq := by
    obtain ⟨other, later⟩ := not_or.1 (mt List.mem_cons.2 hq)
    obtain ⟨frame, page⟩ := rest.elsewhere q later
    obtain ⟨frame', page'⟩ := first.elsewhere q (mt List.mem_singleton.1 other)
    exact ⟨frame.trans frame', page.trans page'⟩

/-- A page that was in the cache is there still. -/
theorem Settled.there (settled : Settled pages e e') (q : PageId)
    (h : ∃ frame, e.frame? q = some frame) : ∃ frame, e'.frame? q = some frame := by
  by_cases here : q ∈ pages
  · exact (settled.here q here).imp fun _ => And.left
  · rwa [(settled.elsewhere q here).1]

/-! ## Commit -/

/-- The engine with the page of a frame written to a file, and marked clean. -/
def wroteBack (e : Engine) (f : HeapFile) (p : PageId) (frame : Frame) : Engine :=
  { e with
    volume := f.writeAt e.volume p.number frame.page.image.toList
    cache := e.cache.modify p fun g => { g with page := g.page.markDirty none } }

section WroteBack

variable {f : HeapFile} {home : Catalog} (there : e.frame? p = some frame)

include there

/-- The page is clean in the cache, and the others are as they were. -/
theorem frame?_wroteBack (q : PageId) : (e.wroteBack f p frame).frame? q
    = if q = p then some ⟨frame.page.markDirty none, frame.load⟩ else e.frame? q := by
  rw [frame?, wroteBack, Cache.peek?_modify]
  split
  · rename_i same
    rw [same, ← frame?, there]
    rfl
  · rfl

/-- Nobody has changed the page any more. -/
theorem dirtyFor_wroteBack (dirty : (e.wroteBack f p frame).DirtyFor u q) :
    q ≠ p ∧ e.DirtyFor u q := by
  obtain ⟨g, hg, dirtier⟩ := dirty
  rw [frame?_wroteBack there] at hg
  split at hg
  · cases hg
    cases dirtier
  · rename_i other
    exact ⟨other, g, hg, dirtier⟩

/-- **A page of a file is written back**, if its table is registered with that
file. -/
theorem on_writeBack (fits : home.Fits e.volume p frame.page) (own : home.file p.table = .ok f)
    (file : e.catalog.file p.table = .ok f) :
    (writeBack p).on e = (.ok (), e.wroteBack f p frame) := by
  rw [writeBack, Turn.on_bind_ok (Turn.on_get e)]
  rw [show e.cache.peek? p = some frame from there]
  dsimp only
  rw [file, Turn.on_bind_ok (Turn.on_ofExcept_ok _ _), fits.writePage own]
  rfl

end WroteBack

section WroteBack

variable {f : HeapFile} (coherent : e.Coherent) (there : e.frame? p = some frame)
  (file : e.catalog.file p.table = .ok f)

include coherent there file

theorem Coherent.on_writeBack : (writeBack p).on e = (.ok (), e.wroteBack f p frame) :=
  Engine.on_writeBack there (coherent.cached p frame there) file file

/-- The file has the page of the cache, and its other pages as they were. -/
theorem Coherent.readPage_wroteBack (q : PageId) : (e.wroteBack f p frame).readPage q
    = if q = p then .ok (frame.page.markDirty none) else e.readPage q :=
  Catalog.Fits.readPage_writeAt (coherent.cached p frame there) file coherent.apart q

/-- No file becomes longer. -/
theorem Coherent.sameSizes_wroteBack : e.SameSizes (e.wroteBack f p frame) :=
  fun _ g _ => Catalog.Fits.size_writeAt (coherent.cached p frame there) file g.path

theorem Coherent.overrun_wroteBack (hit : e.Overrun q) : (e.wroteBack f p frame).Overrun q :=
  ((coherent.sameSizes_wroteBack there file).overrun_iff rfl).2 hit

theorem Coherent.coherent_wroteBack : (e.wroteBack f p frame).Coherent where
  apart := coherent.apart
  locks := coherent.locks
  cached q g hg := by
    rw [frame?_wroteBack there] at hg
    rw [coherent.readPage_wroteBack there file]
    split at hg
    · rename_i same
      cases hg
      exact ⟨_, if_pos same, .refl _⟩
    · rename_i other
      rw [if_neg other]
      exact coherent.cached q g hg
  owned u q h := coherent.owned u q (dirtyFor_wroteBack there h).2
  clean q g d hg clean read intact slot := by
    rw [frame?_wroteBack there] at hg
    rw [coherent.readPage_wroteBack there file] at read
    split at hg
    · rename_i same
      cases hg
      rw [if_pos same] at read
      cases read
      rfl
    · rename_i other
      rw [if_neg other] at read
      exact coherent.clean q g d hg clean read
        (fun hit => intact (coherent.overrun_wroteBack there file hit)) slot

theorem Coherent.settled_wroteBack : Settled [p] e (e.wroteBack f p frame) where
  coherent := coherent.coherent_wroteBack there file
  catalog := rfl
  locks := rfl
  sizes := coherent.sameSizes_wroteBack there file
  here q hq := by
    have same := List.mem_singleton.1 hq
    exact ⟨_, (frame?_wroteBack there q).trans (if_pos same),
      (coherent.readPage_wroteBack there file q).trans (if_pos same)⟩
  elsewhere q hq := by
    have other := mt List.mem_singleton.2 hq
    exact ⟨(frame?_wroteBack there q).trans (if_neg other),
      (coherent.readPage_wroteBack there file q).trans (if_neg other)⟩

end WroteBack

/-- **Writing a page back** settles it: the file has the page of the cache. -/
theorem writeBack_spec (coherent : e.Coherent) (there : e.frame? p = some frame) :
    ∃ e', (writeBack p).on e = (.ok (), e') ∧ Settled [p] e e'
      ∧ e'.readPage p = .ok (frame.page.markDirty none) := by
  obtain ⟨d, read, -⟩ := coherent.cached p frame there
  obtain ⟨f, file, -⟩ := file_of_readPage read
  exact ⟨e.wroteBack f p frame, coherent.on_writeBack there file,
    coherent.settled_wroteBack there file,
    (coherent.readPage_wroteBack there file p).trans (if_pos rfl)⟩

/-- **Writing pages back** settles them: the files have the pages of the
cache. -/
theorem forM_writeBack_spec (pages : List PageId) (coherent : e.Coherent)
    (there : ∀ p ∈ pages, ∃ frame, e.frame? p = some frame) :
    ∃ e', (pages.forM writeBack).on e = (.ok (), e') ∧ Settled pages e e'
      ∧ ∀ p ∈ pages, ∀ frame, e.frame? p = some frame →
        e'.readPage p = .ok (frame.page.markDirty none) := by
  induction pages generalizing e with
  | nil => exact ⟨e, rfl, .nil coherent, by simp⟩
  | cons p pages ih =>
    obtain ⟨frame, here⟩ := there p List.mem_cons_self
    obtain ⟨e₁, written, first, now⟩ := writeBack_spec coherent here
    have still : ∀ q, q ≠ p → e₁.frame? q = e.frame? q := fun q other =>
      (first.elsewhere q (mt List.mem_singleton.1 other)).1
    obtain ⟨e', rest, second, later⟩ := ih first.coherent fun q hq =>
      first.there q (there q (List.mem_cons_of_mem _ hq))
    refine ⟨e', ?_, first.cons second, fun q hq g hg => ?_⟩
    · have run : (p :: pages).forM writeBack = writeBack p >>= fun _ => pages.forM writeBack := rfl
      rw [run, Turn.on_bind_ok written]
      exact rest
    · by_cases same : q = p
      · subst same
        rw [here] at hg
        cases hg
        by_cases again : q ∈ pages
        · -- a page that is written twice is written as it was the first time
          obtain ⟨h, there', read'⟩ := first.here q List.mem_cons_self
          rw [now] at read'
          rw [later q again h there', ← Except.ok.inj read']
          rfl
        · rw [(second.elsewhere q again).2, now]
      · refine later q ((List.mem_cons.1 hq).resolve_left same) g ?_
        rw [still q same, hg]

/-! ## Abort -/

section Restored

variable {d : Page} (read : e.readPage p = .ok d)

include read

/-- The page is in the cache as it was read, and the others are as they
were. -/
theorem frame?_restored (q : PageId) : ((e.discard p).keep d).frame? q
    = if q = p then some ⟨d, e.loads⟩ else e.frame? q := by
  show ((e.cache.erase p).insert d.id ⟨d, e.loads⟩).peek? q = _
  rw [Cache.peek?_insert, Cache.peek?_erase, (of_readPage read).1]
  split <;> rfl

theorem on_restorePage : (restorePage p).on e = (.ok (), (e.discard p).keep d) := by
  have again : (e.discard p).readPage p = .ok d := read
  rw [restorePage, Turn.on_bind_ok (Turn.on_modify _ _), Turn.on_bind_ok (Turn.on_get _), again,
    Turn.on_bind_ok (Turn.on_ofExcept_ok _ _)]
  rfl

theorem Coherent.coherent_restored (coherent : e.Coherent) : ((e.discard p).keep d).Coherent where
  apart := coherent.apart
  locks := coherent.locks
  cached q g hg := by
    rw [frame?_restored read] at hg
    split at hg
    · rename_i same
      cases hg
      exact ⟨d, same ▸ read, .refl d⟩
    · exact coherent.cached q g hg
  owned u q := by
    rintro ⟨g, hg, dirtier⟩
    rw [frame?_restored read] at hg
    split at hg
    · cases hg
      rw [(of_readPage read).2] at dirtier
      cases dirtier
    · exact coherent.owned u q ⟨g, hg, dirtier⟩
  clean q g d' hg clean read' intact slot := by
    rw [frame?_restored read] at hg
    split at hg
    · rename_i same
      cases hg
      have same : d = d' := Except.ok.inj (read.symm.trans (same ▸ read'))
      rw [same]
    · exact coherent.clean q g d' hg clean read' intact slot

end Restored

/-- **Reading a page again** settles it. -/
theorem restorePage_spec (coherent : e.Coherent) (there : e.frame? p = some frame) :
    ∃ e', (restorePage p).on e = (.ok (), e') ∧ Settled [p] e e' ∧ e'.volume = e.volume := by
  obtain ⟨d, read, -⟩ := coherent.cached p frame there
  refine ⟨(e.discard p).keep d, on_restorePage read, ?_, rfl⟩
  exact
    { coherent := coherent.coherent_restored read
      catalog := rfl
      locks := rfl
      sizes := fun _ _ _ => rfl
      here := fun q hq => by
        have same := List.mem_singleton.1 hq
        exact ⟨⟨d, e.loads⟩, (frame?_restored read q).trans (if_pos same), same ▸ read⟩
      elsewhere := fun q hq =>
        ⟨(frame?_restored read q).trans (if_neg (mt List.mem_singleton.2 hq)), rfl⟩ }

/-- **Reading pages again** settles them. -/
theorem restoreAll_spec (pages : List PageId) (coherent : e.Coherent)
    (there : ∀ p ∈ pages, ∃ frame, e.frame? p = some frame) :
    ∃ e', (restoreAll pages).on e = (.ok (), e') ∧ Settled pages e e' ∧ e'.volume = e.volume := by
  induction pages generalizing e with
  | nil => exact ⟨e, rfl, .nil coherent, rfl⟩
  | cons p pages ih =>
    obtain ⟨frame, here⟩ := there p List.mem_cons_self
    obtain ⟨e₁, read, first, volume⟩ := restorePage_spec coherent here
    obtain ⟨e', rest, second, volume'⟩ := ih first.coherent fun q hq =>
      first.there q (there q (List.mem_cons_of_mem _ hq))
    refine ⟨e', ?_, first.cons second, volume'.trans volume⟩
    rw [restoreAll, Turn.on_ofFn, read]
    dsimp only
    rw [rest]
    rfl

/-! ## Both -/

/-- **What the end of a transaction comes to.** -/
structure Ended (t : TxnId) (committed : Bool) (e e' : Engine) : Prop where
  coherent : e'.Coherent
  catalog : e'.catalog = e.catalog
  sizes : e.SameSizes e'
  /-- Only a commit writes, and only pages that the transaction has
  changed. -/
  readPage : ∀ p, (committed = true → ¬e.DirtyFor t p) → e'.readPage p = e.readPage p
  /-- A commit stores what was seen. -/
  stored : committed = true → ∀ r, e.DirtyFor t r.page → e'.stored r = e.seen r
  /-- What is seen on the pages that were changed is what is stored. -/
  settled : ∀ r, e.DirtyFor t r.page → e'.seen r = e'.stored r
  /-- On other pages the same is seen as before. -/
  seen : ∀ r, ¬e.DirtyFor t r.page → e'.seen r = e.seen r
  dirty : ∀ u p, e'.DirtyFor u p ↔ e.DirtyFor u p ∧ u ≠ t
  locks : e'.locks = e.locks.releaseAll t
  modes : e'.locks.mode? = LockModes.without e.locks.mode? t

theorem mem_pagesWith_dirtyFor : p ∈ e.cache.pagesWith (dirtyFor t) ↔ e.DirtyFor t p := by
  rw [Cache.mem_pagesWith, DirtyFor]
  simp [dirtyFor, frame?]

/-- **A transaction has ended** when the pages that it has changed are settled
and its locks are given up. -/
theorem Settled.ended {committed : Bool}
    (settled : Settled (e.cache.pagesWith (dirtyFor t)) e e')
    (readPage : ∀ p, (committed = true → ¬e.DirtyFor t p) → e'.readPage p = e.readPage p)
    (stored : committed = true → ∀ r, e.DirtyFor t r.page → e'.stored r = e.seen r) :
    Ended t committed e (e'.releaseAll t) := by
  have dirty : ∀ u p, e'.DirtyFor u p ↔ e.DirtyFor u p ∧ u ≠ t := by
    intro u p
    by_cases mine : e.DirtyFor t p
    · obtain ⟨frame, there, read⟩ := settled.here p (mem_pagesWith_dirtyFor.2 mine)
      refine ⟨fun ⟨g, hg, dirtier⟩ => ?_, fun ⟨h, other⟩ => absurd (h.unique mine) other⟩
      rw [there] at hg
      cases hg
      rw [(of_readPage read).2] at dirtier
      cases dirtier
    · -- a page that the transaction has not changed was left alone
      have same := (settled.elsewhere p (mt mem_pagesWith_dirtyFor.1 mine)).1
      rw [DirtyFor, same]
      exact ⟨fun h => ⟨h, fun eq => mine (eq ▸ h)⟩, And.left⟩
  have released : Effect t e' [] (e'.releaseAll t) := by
    refine settled.coherent.relock settled.coherent.locks.releaseAll (fun u p other => ?_)
      fun p h => ?_
    · rw [settled.coherent.locks.mode?_releaseAll, LockModes.without, if_neg other]
    · exact absurd rfl ((dirty t p).1 h).2
  exact
    { coherent := released.coherent
      catalog := settled.catalog
      sizes := settled.sizes
      readPage := readPage
      stored := stored
      settled := fun r mine => by
        obtain ⟨frame, there, read⟩ := settled.here r.page (mem_pagesWith_dirtyFor.2 mine)
        have seen : (e'.releaseAll t).pageSeen r.page = .ok frame.page := pageSeen_of_frame there
        have stored : (e'.releaseAll t).readPage r.page = .ok frame.page := read
        rw [Engine.seen, Engine.stored, seen, stored]
      seen := fun r other => by
        obtain ⟨frame, page⟩ := settled.elsewhere r.page (mt mem_pagesWith_dirtyFor.1 other)
        have same : (e'.releaseAll t).pageSeen r.page = e.pageSeen r.page := by
          show e'.pageSeen r.page = _
          rw [pageSeen, pageSeen, frame, page]
        rw [Engine.seen, Engine.seen, same]
      dirty := dirty
      locks := by
        show e'.locks.releaseAll t = _
        rw [settled.locks]
      modes := by
        show (e'.locks.releaseAll t).mode? = _
        rw [settled.coherent.locks.mode?_releaseAll, settled.locks] }

/-- **A commit succeeds**, and stores what was seen on the pages that the
transaction has changed. -/
theorem commit_spec (coherent : e.Coherent) (t : TxnId) :
    ∃ e', (commit t).on e = (.ok (), e') ∧ Ended t true e e' := by
  obtain ⟨e', flushed, settled, written⟩ := forM_writeBack_spec (e.cache.pagesWith (dirtyFor t))
    coherent fun p hp => (mem_pagesWith_dirtyFor.1 hp).imp fun _ => And.left
  have run : (flushPages t).on e = (.ok (), e') := flushed
  refine ⟨e'.releaseAll t, by rw [commit, Turn.on_ofFn, run], settled.ended ?_ ?_⟩
  · intro p clean
    exact (settled.elsewhere p (mt mem_pagesWith_dirtyFor.1 (clean rfl))).2
  · rintro - r ⟨frame, there, dirtier⟩
    have page := written r.page (mem_pagesWith_dirtyFor.2 ⟨frame, there, dirtier⟩) frame there
    rw [stored, page, seen, pageSeen_of_frame there]
    rfl

/-- **An abort succeeds**, and changes nothing in the files. -/
theorem abort_spec (coherent : e.Coherent) (t : TxnId) :
    ∃ e', (abort t).on e = (.ok (), e') ∧ Ended t false e e' := by
  obtain ⟨e', restored, settled, volume⟩ := restoreAll_spec (e.cache.pagesWith (dirtyFor t))
    coherent fun p hp => (mem_pagesWith_dirtyFor.1 hp).imp fun _ => And.left
  have run : (restorePages t).on e = (.ok (), e') := restored
  refine ⟨e'.releaseAll t, by rw [abort, Turn.on_ofFn, run], settled.ended ?_ ?_⟩
  · exact fun p _ => readPage_congr settled.catalog volume
  · exact fun no => by cases no

end Engine

end Tablespace
