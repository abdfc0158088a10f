import Mathlib.Data.List.TakeWhile
import Tablespace.Proofs.Locks.Refinement
import Tablespace.Proofs.Locks.Refusal
import Tablespace.Proofs.Pool.Anchored
import Tablespace.Proofs.Pool.Completion

/-!
# The end of a transaction, whatever stands in its way

A transaction can have changed pages of tables that are not registered any
more. Such pages can neither be written nor read again, so that its commit and
its abort can fail. What comes of the end of a transaction is still settled by
the pages that it has changed, in the order in which they were touched last.

A commit writes them up to the first whose table is not registered
(`Engine.Flushed`). An abort, and a commit that has come to such a page, read
again all that are left, and leave out of the cache those that cannot be read
(`Engine.Restored`). In both cases the first page whose table is not registered
is to blame (`Engine.blame`). The pages that were written, the ones that were
read again and the ones that are gone together are the pages that the
transaction had changed, so no trace of it is left (`Engine.Finished`).
-/

namespace Tablespace

/-- **A page of the cache, marked clean.** -/
def Frame.cleaned (frame : Frame) : Frame :=
  { frame with page := frame.page.markDirty none }

namespace Engine

variable {e e₁ e' : Engine} {home : Catalog} {t u : TxnId} {p q : PageId} {frame : Frame}
  {pages written : List PageId} {d : Page}

/-- **Whether the table of a page is registered.** -/
def registered (e : Engine) (p : PageId) : Bool :=
  (e.catalog.file p.table).isOk

/-- **What the end of a transaction answers**, by the pages that it has changed:
the first whose table is not registered is to blame. -/
def blame (e : Engine) (pages : List PageId) : Except Halt Unit :=
  match pages.find? fun p => !e.registered p with
  | none => .ok ()
  | some p => .error (.fault (.tableNotFound p.table))

theorem registered_iff : e.registered p = true ↔ ∃ f, e.catalog.file p.table = .ok f := by
  unfold registered
  cases e.catalog.file p.table with
  | ok f => exact iff_of_true rfl ⟨f, rfl⟩
  | error cause => exact iff_of_false (fun h => by cases h) (fun ⟨f, h⟩ => by cases h)

theorem registered_eq_false_iff :
    e.registered p = false ↔ e.catalog.file p.table = .error (.tableNotFound p.table) := by
  unfold registered
  cases file : e.catalog.file p.table with
  | ok f => exact iff_of_false (fun h => by cases h) (fun h => by cases h)
  | error cause => exact iff_of_true rfl (congrArg _ (Catalog.file_error file))

theorem blame_cons_of_registered (h : e.registered p = true) :
    e.blame (p :: pages) = e.blame pages := by
  rw [blame, blame, List.find?_cons_of_neg (by simp [h])]

theorem blame_cons_of_not_registered (h : e.registered p = false) :
    e.blame (p :: pages) = .error (.fault (.tableNotFound p.table)) := by
  rw [blame, List.find?_cons_of_pos (by simp [h])]

/-- Nobody is to blame exactly if all tables are registered. -/
theorem blame_eq_ok_iff : e.blame pages = .ok () ↔ ∀ p ∈ pages, e.registered p = true := by
  induction pages with
  | nil => simp [blame]
  | cons p pages ih =>
    cases here : e.registered p with
    | true => rw [blame_cons_of_registered here, ih]; simp [here]
    | false => rw [blame_cons_of_not_registered here]; simp [here]

/-- **The first page to blame** divides the pages. -/
theorem blame_eq_error {halt : Halt} (h : e.blame pages = .error halt) :
    ∃ first later, pages = pages.takeWhile e.registered ++ first :: later
      ∧ e.registered first = false ∧ halt = .fault (.tableNotFound first.table) := by
  induction pages with
  | nil => cases h
  | cons p pages ih =>
    cases here : e.registered p with
    | true =>
      rw [blame_cons_of_registered here] at h
      obtain ⟨first, later, split, lost, rfl⟩ := ih h
      refine ⟨first, later, ?_, lost, rfl⟩
      rw [List.takeWhile_cons_of_pos here, List.cons_append, ← split]
    | false =>
      rw [blame_cons_of_not_registered here] at h
      cases h
      exact ⟨p, pages, by rw [List.takeWhile_cons_of_neg (by simp [here])]; rfl, here, rfl⟩

/-! ## Writing pages back -/

/-- **Pages that were written back**, next to others that were left alone. -/
structure Flushed (home : Catalog) (pages : List PageId) (e e' : Engine) : Prop where
  anchored : e'.Anchored home
  catalog : e'.catalog = e.catalog
  locks : e'.locks = e.locks
  /-- No page moves in the cache. -/
  order : e'.cache.pages = e.cache.pages
  /-- Only the bytes of the pages change. -/
  bytes : ∀ path i, (∀ p ∈ pages, ¬home.Owns p path i) →
    (e'.volume.content path).toList[i]? = (e.volume.content path).toList[i]?
  /-- The pages are clean, in the cache and in their files. -/
  here : ∀ p ∈ pages, ∀ frame, e.frame? p = some frame →
    e'.frame? p = some frame.cleaned ∧ home.readPage e'.volume p = .ok frame.cleaned.page
  elsewhere : ∀ p, p ∉ pages →
    e'.frame? p = e.frame? p ∧ home.readPage e'.volume p = home.readPage e.volume p
  /-- No pages, no writing. -/
  unwritten : pages = [] → e'.volume = e.volume

theorem Flushed.nil (anchored : e.Anchored home) : Flushed home [] e e :=
  ⟨anchored, rfl, rfl, rfl, fun _ _ _ => rfl, by simp, fun _ _ => ⟨rfl, rfl⟩, fun _ => rfl⟩

/-- **Pages that are written one after the other are written.** -/
theorem Flushed.cons (first : Flushed home [p] e e₁) (rest : Flushed home pages e₁ e') :
    Flushed home (p :: pages) e e' where
  anchored := rest.anchored
  catalog := rest.catalog.trans first.catalog
  locks := rest.locks.trans first.locks
  order := rest.order.trans first.order
  bytes path i outside := (rest.bytes path i fun q hq => outside q (List.mem_cons_of_mem _ hq)).trans
    (first.bytes path i fun q hq => outside q (List.mem_singleton.1 hq ▸ List.mem_cons_self))
  here q hq frame there := by
    by_cases same : q = p
    · subst same
      obtain ⟨cleaned, stored⟩ := first.here q List.mem_cons_self frame there
      by_cases again : q ∈ pages
      · exact rest.here q again frame.cleaned cleaned
      · obtain ⟨sameFrame, samePage⟩ := rest.elsewhere q again
        exact ⟨sameFrame.trans cleaned, samePage.trans stored⟩
    · have later := (List.mem_cons.1 hq).resolve_left same
      have sameFrame := (first.elsewhere q (mt List.mem_singleton.1 same)).1
      exact rest.here q later frame (sameFrame.trans there)
  elsewhere q hq := by
    obtain ⟨other, later⟩ := not_or.1 (mt List.mem_cons.2 hq)
    obtain ⟨frame, page⟩ := rest.elsewhere q later
    obtain ⟨frame', page'⟩ := first.elsewhere q (mt List.mem_singleton.1 other)
    exact ⟨frame.trans frame', page.trans page'⟩
  unwritten none := by cases none

/-- **A page of a table that is registered is written.** -/
theorem Anchored.flushed_writeBack (anchored : e.Anchored home) (there : e.frame? p = some frame)
    (registered : e.registered p = true) :
    ∃ e', (Engine.writeBack p).on e = (.ok (), e') ∧ Flushed home [p] e e' := by
  obtain ⟨f, file⟩ := registered_iff.1 registered
  have fits := anchored.cached p frame there
  have own := anchored.file file
  have done := on_writeBack there fits own file
  have now := frame?_wroteBack (f := f) there
  have anchored' := (anchored.writeBack p).anchored
  rw [done] at anchored'
  refine ⟨e.wroteBack f p frame, done, ?_⟩
  exact
    { anchored := anchored'
      catalog := rfl
      locks := rfl
      order := Cache.pages_modify _
      bytes := fun path i outside => fits.getElem?_writeAt own (outside p List.mem_cons_self)
      here := fun q hq g hg => by
        obtain rfl := List.mem_singleton.1 hq
        rw [there] at hg
        cases hg
        exact ⟨(now q).trans (if_pos rfl),
          (fits.readPage_writeAt own anchored.apart q).trans (if_pos rfl)⟩
      elsewhere := fun q hq => by
        have other := mt List.mem_singleton.2 hq
        exact ⟨(now q).trans (if_neg other),
          (fits.readPage_writeAt own anchored.apart q).trans (if_neg other)⟩
      unwritten := fun none => by cases none }

/-- A page of another table is not. -/
theorem on_writeBack_of_not_registered (there : e.frame? p = some frame)
    (lost : e.registered p = false) :
    (writeBack p).on e = (.error (.fault (.tableNotFound p.table)), e) := by
  rw [writeBack, Turn.on_bind_ok (Turn.on_get e), show e.cache.peek? p = some frame from there]
  dsimp only
  rw [registered_eq_false_iff.1 lost, Turn.on_bind_error (Turn.on_ofExcept_error _ _)]

/-- **Pages are written back** up to the first whose table is not registered. -/
theorem Anchored.flushed (anchored : e.Anchored home) (pages : List PageId)
    (there : ∀ p ∈ pages, ∃ frame, e.frame? p = some frame) :
    ∃ e', (pages.forM Engine.writeBack).on e = (e.blame pages, e')
      ∧ Flushed home (pages.takeWhile e.registered) e e' := by
  induction pages generalizing e with
  | nil => exact ⟨e, rfl, .nil anchored⟩
  | cons p pages ih =>
    have run : (p :: pages).forM Engine.writeBack
        = Engine.writeBack p >>= fun _ => pages.forM Engine.writeBack := rfl
    obtain ⟨frame, here⟩ := there p List.mem_cons_self
    cases registered : e.registered p with
    | false =>
      rw [run, Turn.on_bind_error (on_writeBack_of_not_registered here registered),
        blame_cons_of_not_registered registered,
        List.takeWhile_cons_of_neg (by simp [registered])]
      exact ⟨e, rfl, .nil anchored⟩
    | true =>
      obtain ⟨e₁, done, first⟩ := anchored.flushed_writeBack here registered
      have same : e₁.registered = e.registered := funext fun q => by
        rw [Engine.registered, Engine.registered, first.catalog]
      have still : ∀ q ∈ pages, ∃ frame, e₁.frame? q = some frame := fun q hq => by
        obtain ⟨g, hg⟩ := there q (List.mem_cons_of_mem _ hq)
        by_cases written : q ∈ [p]
        · exact ⟨_, (first.here q written g hg).1⟩
        · exact ⟨g, (first.elsewhere q written).1.trans hg⟩
      obtain ⟨e', rest, second⟩ := ih first.anchored still
      rw [blame, same] at rest
      rw [same] at second
      rw [run, Turn.on_bind_ok done, blame_cons_of_registered registered,
        List.takeWhile_cons_of_pos registered]
      exact ⟨e', rest, first.cons second⟩

/-! ## Reading pages again -/

/-- **Pages that were read again**, next to others that were left alone. -/
structure Restored (home : Catalog) (pages : List PageId) (e e' : Engine) : Prop where
  anchored : e'.Anchored home
  catalog : e'.catalog = e.catalog
  locks : e'.locks = e.locks
  volume : e'.volume = e.volume
  /-- No page comes into the cache that was not there. -/
  count : e'.cache.size ≤ e.cache.size
  /-- The pages are as in their files, if they can be read. -/
  here : ∀ p ∈ pages, e.registered p = true →
    ∃ frame, e'.frame? p = some frame ∧ home.readPage e.volume p = .ok frame.page
  /-- Else they are gone. -/
  gone : ∀ p ∈ pages, e.registered p = false → e'.frame? p = none
  elsewhere : ∀ p, p ∉ pages → e'.frame? p = e.frame? p
  /-- No pages, no change. -/
  unmoved : pages = [] → e'.cache.pages = e.cache.pages

theorem Restored.nil (anchored : e.Anchored home) : Restored home [] e e :=
  ⟨anchored, rfl, rfl, rfl, Nat.le_refl _, by simp, by simp, fun _ _ => rfl, fun _ => rfl⟩

/-- **Pages that are read again one after the other are read again.** -/
theorem Restored.cons (first : Restored home [p] e e₁) (rest : Restored home pages e₁ e')
    (other : p ∉ pages) : Restored home (p :: pages) e e' where
  anchored := rest.anchored
  catalog := rest.catalog.trans first.catalog
  locks := rest.locks.trans first.locks
  volume := rest.volume.trans first.volume
  count := Nat.le_trans rest.count first.count
  here q hq registered := by
    rcases List.mem_cons.1 hq with rfl | later
    · rw [rest.elsewhere q other]
      exact first.here q List.mem_cons_self registered
    · rw [← first.volume]
      refine rest.here q later ?_
      rwa [Engine.registered, first.catalog]
  gone q hq lost := by
    rcases List.mem_cons.1 hq with rfl | later
    · rw [rest.elsewhere q other]
      exact first.gone q List.mem_cons_self lost
    · refine rest.gone q later ?_
      rwa [Engine.registered, first.catalog]
  elsewhere q hq := by
    obtain ⟨other, later⟩ := not_or.1 (mt List.mem_cons.2 hq)
    exact (rest.elsewhere q later).trans (first.elsewhere q (mt List.mem_singleton.1 other))
  unmoved none := by cases none

/-- **A page is read again**, or is gone if its table is not registered. -/
theorem Anchored.restored_page (anchored : e.Anchored home) (there : e.frame? p = some frame) :
    ∃ e', (restorePage p).on e = (e.blame [p], e') ∧ Restored home [p] e e' := by
  have fewer := Cache.size_erase there
  cases registered : e.registered p with
  | true =>
    obtain ⟨f, file⟩ := registered_iff.1 registered
    obtain ⟨d, read, own⟩ := anchored.isOk_readPage there file
    have now := frame?_restored read
    have gone : (e.cache.erase p).peek? d.id = none := by
      rw [Cache.peek?_erase, if_pos (of_readPage read).1]
    refine ⟨(e.discard p).keep d, ?_, ?_⟩
    · rw [on_restorePage read, blame_cons_of_registered registered]
      rfl
    · exact
        { anchored := (anchored.erase p).keep (anchored.fits_of_readPage read)
          catalog := rfl
          locks := rfl
          volume := rfl
          count := by
            show ((e.cache.erase p).insert d.id ⟨d, e.loads⟩).size ≤ e.cache.size
            rw [Cache.size_insert_of_none gone, fewer]
          here := fun q hq _ => by
            obtain rfl := List.mem_singleton.1 hq
            exact ⟨_, (now q).trans (if_pos rfl), own⟩
          gone := fun q hq lost => by
            rw [List.mem_singleton.1 hq, registered] at lost
            cases lost
          elsewhere := fun q hq => (now q).trans (if_neg (mt List.mem_singleton.2 hq))
          unmoved := fun none => by cases none }
  | false =>
    have now (q : PageId) : (e.discard p).frame? q = if q = p then none else e.frame? q :=
      Cache.peek?_erase
    have unread : (e.discard p).readPage p = .error (.tableNotFound p.table) := by
      unfold Engine.readPage
      rw [show (e.discard p).catalog.file p.table = _ from registered_eq_false_iff.1 registered]
      rfl
    refine ⟨e.discard p, ?_, ?_⟩
    · rw [restorePage, Turn.on_bind_ok (Turn.on_modify _ _), Turn.on_bind_ok (Turn.on_get _), unread,
        Turn.on_bind_error (Turn.on_ofExcept_error _ _), blame_cons_of_not_registered registered]
    · exact
        { anchored := anchored.erase p
          catalog := rfl
          locks := rfl
          volume := rfl
          count := by
            show (e.cache.erase p).size ≤ e.cache.size
            omega
          here := fun q hq known => by
            rw [List.mem_singleton.1 hq, registered] at known
            cases known
          gone := fun q hq _ => (now q).trans (if_pos (List.mem_singleton.1 hq))
          elsewhere := fun q hq => (now q).trans (if_neg (mt List.mem_singleton.2 hq))
          unmoved := fun none => by cases none }

/-- **All pages are read again**, those behind one that is gone as well. -/
theorem Anchored.restored (anchored : e.Anchored home) (nodup : pages.Nodup)
    (there : ∀ p ∈ pages, ∃ frame, e.frame? p = some frame) :
    ∃ e', (restoreAll pages).on e = (e.blame pages, e') ∧ Restored home pages e e' := by
  induction pages generalizing e with
  | nil => exact ⟨e, rfl, .nil anchored⟩
  | cons p pages ih =>
    obtain ⟨other, distinct⟩ := List.nodup_cons.1 nodup
    obtain ⟨frame, here⟩ := there p List.mem_cons_self
    obtain ⟨e₁, done, first⟩ := anchored.restored_page here
    have same : e₁.registered = e.registered := funext fun q => by
      rw [Engine.registered, Engine.registered, first.catalog]
    have still : ∀ q ∈ pages, ∃ frame, e₁.frame? q = some frame := fun q hq => by
      obtain ⟨g, hg⟩ := there q (List.mem_cons_of_mem _ hq)
      have ne : q ∉ [p] := fun eq => other (List.mem_singleton.1 eq ▸ hq)
      exact ⟨g, (first.elsewhere q ne).trans hg⟩
    obtain ⟨e', rest, second⟩ := ih first.anchored distinct still
    refine ⟨e', ?_, first.cons second other⟩
    rw [blame, same] at rest
    rw [restoreAll, Turn.on_ofFn, done]
    dsimp only
    rw [rest]
    -- the first page that is to blame is the one in front, or else the first of the others
    cases registered : e.registered p with
    | true => rw [blame_cons_of_registered registered, blame_cons_of_registered registered]; rfl
    | false =>
      rw [blame_cons_of_not_registered registered, blame_cons_of_not_registered registered]
      rfl

/-! ## Commit and abort -/

/-- **The pages that a transaction has changed**, the least recently touched
first. -/
def dirtied (e : Engine) (t : TxnId) : List PageId :=
  e.cache.pagesWith (dirtyFor t)

theorem mem_dirtied : p ∈ e.dirtied t ↔ e.DirtyFor t p :=
  mem_pagesWith_dirtyFor

theorem nodup_dirtied : (e.dirtied t).Nodup :=
  Cache.nodup_pagesWith _

theorem exists_frame_of_dirtied (h : p ∈ e.dirtied t) : ∃ frame, e.frame? p = some frame :=
  (mem_dirtied.1 h).imp fun _ => And.left

/-- **The pages that are written** when a transaction is ended: by a commit,
those up to the first that is to blame. -/
def writes (e : Engine) (t : TxnId) (committed : Bool) : List PageId :=
  if committed then (e.dirtied t).takeWhile e.registered else []

/-- Only pages that the transaction has changed are written. -/
theorem dirtyFor_of_mem_writes {committed : Bool} (h : p ∈ e.writes t committed) :
    e.DirtyFor t p := by
  unfold writes at h
  split at h
  · exact mem_dirtied.1 (List.takeWhile_subset _ h)
  · cases h

/-- A commit for which nobody is to blame writes all of them. -/
theorem writes_of_blame_eq_ok (h : e.blame (e.dirtied t) = .ok ()) :
    e.writes t true = e.dirtied t :=
  List.takeWhile_eq_self_iff.2 (blame_eq_ok_iff.1 h)

/-- **What the end of a transaction leaves**, when some of the pages that it has
changed were written. -/
structure Finished (home : Catalog) (t : TxnId) (written : List PageId) (e e' : Engine) : Prop where
  anchored : e'.Anchored home
  locks : e'.locks = e.locks.releaseAll t
  /-- No page comes into the cache that was not there. -/
  count : e'.cache.size ≤ e.cache.size
  /-- Only the bytes of pages that were written change. -/
  bytes : ∀ path i, (∀ p ∈ written, ¬home.Owns p path i) →
    (e'.volume.content path).toList[i]? = (e.volume.content path).toList[i]?
  /-- The pages that were written are clean, in the cache and in their
  files. -/
  stored : ∀ p ∈ written, ∀ frame, e.frame? p = some frame →
    e'.frame? p = some frame.cleaned ∧ home.readPage e'.volume p = .ok frame.cleaned.page
  /-- The files have all other pages as they were. -/
  unwritten : ∀ p, p ∉ written → home.readPage e'.volume p = home.readPage e.volume p
  /-- The pages that were not written are as in their files, if they can be
  read. -/
  restored : ∀ p, e.DirtyFor t p → p ∉ written → e.registered p = true →
    ∃ frame, e'.frame? p = some frame ∧ home.readPage e.volume p = .ok frame.page
  /-- Else they are gone. -/
  gone : ∀ p, e.DirtyFor t p → p ∉ written → e.registered p = false → e'.frame? p = none
  /-- Pages that the transaction had not changed are left alone. -/
  others : ∀ p, ¬e.DirtyFor t p → e'.frame? p = e.frame? p
  /-- If all were written, no page has moved in the cache. -/
  order : (∀ p, e.DirtyFor t p → p ∈ written) → e'.cache.pages = e.cache.pages
  /-- If none was, the files are as they were. -/
  volume : written = [] → e'.volume = e.volume

/-- The pages that are dirty when some were written are the others. -/
theorem Flushed.dirtyFor_iff (flushed : Flushed home written e e₁)
    (dirty : ∀ p ∈ written, e.DirtyFor t p) :
    e₁.DirtyFor u p ↔ e.DirtyFor u p ∧ p ∉ written := by
  by_cases here : p ∈ written
  · obtain ⟨frame, there, -⟩ := dirty p here
    refine iff_of_false (fun ⟨g, hg, dirtier⟩ => ?_) fun h => h.2 here
    rw [(flushed.here p here frame there).1] at hg
    cases hg
    cases dirtier
  · rw [DirtyFor, (flushed.elsewhere p here).1]
    exact ⟨fun h => ⟨h, here⟩, And.left⟩

/-- **A transaction has ended** when some of its pages are written, the others
are read again, and its locks are given up. -/
theorem Flushed.finished (flushed : Flushed home written e e₁)
    (dirty : ∀ p ∈ written, e.DirtyFor t p) (restored : Restored home pages e₁ e')
    (left : ∀ p, p ∈ pages ↔ e₁.DirtyFor t p) : Finished home t written e (e'.releaseAll t) := by
  have left' (p : PageId) : p ∈ pages ↔ e.DirtyFor t p ∧ p ∉ written :=
    (left p).trans (flushed.dirtyFor_iff dirty)
  have known (p : PageId) : e₁.registered p = e.registered p := by
    rw [registered, registered, flushed.catalog]
  have volume : (e'.releaseAll t).volume = e₁.volume := restored.volume
  exact
    { anchored := restored.anchored.relock restored.anchored.locks.releaseAll
      locks := by
        show e'.locks.releaseAll t = _
        rw [restored.locks, flushed.locks]
      count := by
        have same : e₁.cache.size = e.cache.size := by
          have order := congrArg List.length flushed.order
          rwa [Cache.pages, Cache.pages, List.length_map, List.length_map] at order
        exact same ▸ restored.count
      bytes := volume ▸ flushed.bytes
      stored := fun p hp frame there => by
        obtain ⟨cleaned, stored⟩ := flushed.here p hp frame there
        have alone : p ∉ pages := fun h => ((left' p).1 h).2 hp
        exact ⟨(restored.elsewhere p alone).trans cleaned, volume ▸ stored⟩
      unwritten := fun p hp => volume ▸ (flushed.elsewhere p hp).2
      restored := fun p mine hp registered => by
        have again := (left' p).2 ⟨mine, hp⟩
        rw [← (flushed.elsewhere p hp).2]
        exact restored.here p again ((known p).trans registered)
      gone := fun p mine hp lost =>
        restored.gone p ((left' p).2 ⟨mine, hp⟩) ((known p).trans lost)
      others := fun p other => by
        have alone : p ∉ pages := fun h => other ((left' p).1 h).1
        have unwritten : p ∉ written := fun h => other (dirty p h)
        exact (restored.elsewhere p alone).trans (flushed.elsewhere p unwritten).1
      order := fun all => by
        have none : pages = [] := List.eq_nil_iff_forall_not_mem.2 fun p hp =>
          ((left' p).1 hp).2 (all p ((left' p).1 hp).1)
        exact (restored.unmoved none).trans flushed.order
      volume := fun none => volume.trans (flushed.unwritten none) }

/-- **What a commit leaves**: the pages up to the first that is to blame are
written. -/
theorem Anchored.commit (anchored : e.Anchored home) (t : TxnId) :
    ∃ e', (Engine.commit t).on e = (e.blame (e.dirtied t), e')
      ∧ Finished home t (e.writes t true) e e' := by
  have dirty : ∀ p ∈ e.writes t true, e.DirtyFor t p := fun _ => dirtyFor_of_mem_writes
  obtain ⟨e₁, run, flushed⟩ := anchored.flushed (e.dirtied t) fun _ => exists_frame_of_dirtied
  have run : (Engine.flushPages t).on e = (e.blame (e.dirtied t), e₁) := run
  have flushed : Flushed home (e.writes t true) e e₁ := flushed
  rw [Engine.commit, Turn.on_ofFn, run]
  cases blamed : e.blame (e.dirtied t) with
  | ok _ =>
    -- all pages are written, so none is left to be read again
    refine ⟨e₁.releaseAll t, rfl, flushed.finished dirty (.nil flushed.anchored) fun p => ?_⟩
    rw [flushed.dirtyFor_iff dirty, writes_of_blame_eq_ok blamed, mem_dirtied]
    simp
  | error halt =>
    obtain ⟨first, later, -, -, rfl⟩ := blame_eq_error blamed
    have nodup : (e₁.dirtied t).Nodup := nodup_dirtied
    obtain ⟨e', again, restored⟩ := flushed.anchored.restored nodup
      fun _ => exists_frame_of_dirtied
    have again : (restorePages t).on e₁ = (e₁.blame (e₁.dirtied t), e') := again
    refine ⟨e'.releaseAll t, ?_, flushed.finished dirty restored fun _ => mem_dirtied⟩
    dsimp only
    rw [again]

/-- **What an abort leaves**: no page is written. -/
theorem Anchored.abort (anchored : e.Anchored home) (t : TxnId) :
    ∃ e', (Engine.abort t).on e = (e.blame (e.dirtied t), e')
      ∧ Finished home t (e.writes t false) e e' := by
  have nodup : (e.dirtied t).Nodup := nodup_dirtied
  obtain ⟨e', run, restored⟩ := anchored.restored nodup fun _ => exists_frame_of_dirtied
  have run : (restorePages t).on e = (e.blame (e.dirtied t), e') := run
  refine ⟨e'.releaseAll t, by rw [Engine.abort, Turn.on_ofFn, run], ?_⟩
  exact (Flushed.nil anchored).finished (by simp) restored fun _ => mem_dirtied

/-- **What the end of a transaction leaves.** -/
theorem Anchored.complete (anchored : e.Anchored home) (t : TxnId) (committed : Bool) :
    ∃ e', (if committed then Engine.commit t else Engine.abort t).on e = (e.blame (e.dirtied t), e')
      ∧ Finished home t (e.writes t committed) e e' := by
  cases committed with
  | true => exact anchored.commit t
  | false => exact anchored.abort t

end Engine

end Tablespace
