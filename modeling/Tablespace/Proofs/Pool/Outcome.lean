import Tablespace.Proofs.Pool.Ending

/-!
# The outcome of an end

When every page in the cache is a page of a registered file (`Engine.Fitting`), the end of a
transaction cannot fail, and what it leaves can be said outright (`Engine.Outcome`): which bytes
the files have, which pages are in the cache and in which order, and what each of them is.

Nothing is asked of the catalog beyond that. Two tables may keep their rows in one file, and then
one page of it is two pages of the cache. So it is said how the files are written, page by page in
the order of the cache, and not only what is in them in the end.
-/

namespace Tablespace

namespace Cache

variable {α : Type} {c : Cache α} {page : PageId}

/-- To take a page out is to leave it out of the order. -/
theorem pages_erase : (c.erase page).pages = c.pages.filter (· ≠ page) := by
  rw [pages, pages, erase, List.filter_map]
  rfl

/-- A page that is put in comes last in the order. -/
theorem pages_insert (value : α) :
    (c.insert page value).pages = c.pages.filter (· ≠ page) ++ [page] := by
  rw [← pages_erase, pages, entries_insert, List.map_append]
  rfl

/-- **The pages whose values have a property**, found by their order. -/
theorem pagesWith_eq_filter (wanted : α → Bool) :
    c.pagesWith wanted = c.pages.filter fun page => (c.peek? page).any wanted := by
  rw [pagesWith, pages, List.filter_map]
  refine congrArg (List.map _) (List.filter_congr fun entry there => ?_)
  have value : c.peek? entry.1 = some entry.2 := peek?_eq_some_iff.2 there
  rw [Function.comp_apply, value]
  rfl

end Cache

namespace Engine

variable {e e₁ e' : Engine} {t u : TxnId} {p q : PageId} {frame : Frame} {pages : List PageId}
  {committed : Bool}

/-- **The page in the cache**, whichever load brought it. -/
def page? (e : Engine) (p : PageId) : Option Page :=
  (e.frame? p).map (·.page)

theorem dirtyFor_iff_page? :
    e.DirtyFor t p ↔ ∃ page, e.page? p = some page ∧ page.dirtier = some t := by
  simp [DirtyFor, page?]

/-- The pages that a transaction has changed are in the order of the cache. -/
theorem dirtied_eq_filter (e : Engine) (t : TxnId) :
    e.dirtied t = e.cache.pages.filter (· ∈ e.dirtied t) := by
  refine (Cache.pagesWith_eq_filter _).trans (List.filter_congr fun p _ => ?_)
  rw [Bool.eq_iff_iff, decide_eq_true_iff, dirtied, Cache.mem_pagesWith, Option.any_eq_true]

/-- **Every page in the cache is a page of a registered file.** -/
def Fitting (e : Engine) : Prop :=
  ∀ p frame, e.frame? p = some frame → e.catalog.Fits e.volume p frame.page

namespace Fitting

variable (fitting : e.Fitting)

include fitting

theorem fits {page : Page} (there : e.page? p = some page) :
    e.catalog.Fits e.volume p page := by
  obtain ⟨frame, here, rfl⟩ := Option.map_eq_some_iff.1 there
  exact fitting p frame here

/-- A page that is written back is one of a registered file still. -/
theorem wroteBack {f : HeapFile} (there : e.frame? p = some frame) :
    (e.wroteBack f p frame).Fitting := by
  intro q g now
  rw [frame?_wroteBack there] at now
  have grows : e.volume.Grows (e.wroteBack f p frame).volume := HeapFile.grows_writeAt
  split at now
  · rename_i same
    cases now
    subst same
    exact ((fitting q frame there).alike (frame.page.alike_markDirty none)).mono grows
  · exact (fitting q g now).mono grows

/-- **Every page can be written back.** -/
theorem on_writeBack (there : e.frame? p = some frame) :
    ∃ f, e.catalog.file p.table = .ok f ∧ (writeBack p).on e = (.ok (), e.wroteBack f p frame) := by
  obtain ⟨f, file⟩ := (fitting p frame there).file
  exact ⟨f, file, Engine.on_writeBack there (fitting p frame there) file file⟩

/-- A page that is read again is one of a registered file. -/
theorem restored {d : Page} (read : e.readPage p = .ok d) : ((e.discard p).keep d).Fitting := by
  intro q g now
  rw [frame?_restored read] at now
  split at now
  · rename_i same
    subst same
    cases now
    exact Catalog.fits_of_readPage read
  · exact fitting q g now

end Fitting

/-! ## Writing pages back -/

/-- **What pages that are written back leave.** -/
structure WrittenBack (pages : List PageId) (e e' : Engine) : Prop where
  catalog : e'.catalog = e.catalog
  locks : e'.locks = e.locks
  volume : e'.volume = e.written pages
  order : e'.cache.pages = e.cache.pages
  page? : ∀ q, e'.page? q
    = if q ∈ pages then (e.page? q).map (·.markDirty none) else e.page? q

/-- Writing one page back marks it clean, and no other. -/
theorem page?_wroteBack {f : HeapFile} (there : e.frame? p = some frame) (q : PageId) :
    (e.wroteBack f p frame).page? q
      = if q = p then (e.page? q).map (·.markDirty none) else e.page? q := by
  rw [page?, frame?_wroteBack there]
  split
  · rename_i same
    rw [page?, same, there]
    rfl
  · rfl

/-- **Pages of the cache are written back.** -/
theorem Fitting.writtenBack (fitting : e.Fitting)
    (there : ∀ p ∈ pages, ∃ frame, e.frame? p = some frame) :
    ∃ e', (pages.forM writeBack).on e = (.ok (), e') ∧ WrittenBack pages e e' := by
  induction pages generalizing e with
  | nil => exact ⟨e, rfl, rfl, rfl, rfl, rfl, fun q => by simp⟩
  | cons p pages ih =>
    obtain ⟨frame, here⟩ := there p List.mem_cons_self
    obtain ⟨f, file, written⟩ := fitting.on_writeBack here
    have still (q : PageId) (hq : q ∈ pages) : ∃ g, (e.wroteBack f p frame).frame? q = some g := by
      rw [frame?_wroteBack here]
      split
      · exact ⟨_, rfl⟩
      · exact there q (List.mem_cons_of_mem _ hq)
    obtain ⟨e', rest, later⟩ := ih (fitting.wroteBack here) still
    have run : (p :: pages).forM writeBack = writeBack p >>= fun _ => pages.forM writeBack := rfl
    refine ⟨e', by rw [run, Turn.on_bind_ok written, rest], ?_⟩
    exact
      { catalog := later.catalog
        locks := later.locks
        volume := later.volume.trans (written_wroteBack here file)
        order := later.order.trans (Cache.pages_modify _)
        page? := fun q => by
          rw [later.page?, page?_wroteBack here]
          by_cases same : q = p
          · -- a page that is written twice is as clean as after the first time
            rw [if_pos same, if_pos (List.mem_cons.2 (.inl same)), Option.map_map]
            split <;> rfl
          · simp only [List.mem_cons, same, false_or, if_false] }

/-! ## Reading pages again -/

/-- **What pages that are read again leave**: they are the last in the cache. -/
structure ReadAgain (pages : List PageId) (e e' : Engine) : Prop where
  catalog : e'.catalog = e.catalog
  locks : e'.locks = e.locks
  volume : e'.volume = e.volume
  order : e'.cache.pages = e.cache.pages.filter (· ∉ pages) ++ pages
  page? : ∀ q, e'.page? q = if q ∈ pages then (e.readPage q).toOption else e.page? q

/-- Reading one page again puts it behind the others. -/
theorem pages_restored {d : Page} (read : e.readPage p = .ok d) :
    ((e.discard p).keep d).cache.pages = e.cache.pages.filter (· ≠ p) ++ [p] := by
  show ((e.cache.erase p).insert d.id ⟨d, e.loads⟩).pages = _
  rw [Cache.pages_insert, Cache.pages_erase, (of_readPage read).1, List.filter_filter]
  simp only [Bool.and_self]

/-- **Pages of the cache are read again.** -/
theorem Fitting.readAgain (fitting : e.Fitting) (distinct : pages.Nodup)
    (there : ∀ p ∈ pages, ∃ frame, e.frame? p = some frame) :
    ∃ e', (restoreAll pages).on e = (.ok (), e') ∧ ReadAgain pages e e' := by
  induction pages generalizing e with
  | nil => exact ⟨e, rfl, rfl, rfl, rfl, by simp, fun q => by simp⟩
  | cons p pages ih =>
    obtain ⟨other, distinct⟩ := List.nodup_cons.1 distinct
    obtain ⟨frame, here⟩ := there p List.mem_cons_self
    obtain ⟨d, read, -⟩ : ∃ d, e.readPage p = .ok d ∧ d.Alike frame.page := fitting p frame here
    have now := frame?_restored read
    have still (q : PageId) (hq : q ∈ pages) : ∃ g, ((e.discard p).keep d).frame? q = some g := by
      rw [now, if_neg fun same : q = p => other (same ▸ hq)]
      exact there q (List.mem_cons_of_mem _ hq)
    obtain ⟨e', rest, later⟩ := ih (fitting.restored read) distinct still
    refine ⟨e', ?_, ?_⟩
    · rw [restoreAll, Turn.on_ofFn, on_restorePage read]
      dsimp only
      rw [rest]
      rfl
    · exact
        { catalog := later.catalog
          locks := later.locks
          volume := later.volume
          order := by
            have others : ((e.cache.pages.filter (· ≠ p)).filter (· ∉ pages))
                = e.cache.pages.filter (· ∉ p :: pages) := by
              rw [List.filter_filter]
              exact List.filter_congr fun q _ => by simp [Bool.and_comm]
            have last : [p].filter (· ∉ pages) = [p] := List.filter_eq_self.2 (by simpa using other)
            rw [later.order, pages_restored read, List.filter_append, others, last,
              List.append_assoc]
            rfl
          page? := fun q => by
            rw [later.page?, Engine.page?, now]
            by_cases same : q = p
            · subst same
              rw [if_neg other, if_pos rfl, if_pos List.mem_cons_self, read]
              rfl
            · simp only [List.mem_cons, same, false_or, if_false]
              rfl }

/-! ## Commit and abort -/

/-- **The pages that a transaction writes** at its end, if it is committed. -/
def commits (e : Engine) (t : TxnId) (committed : Bool) : List PageId :=
  if committed then e.dirtied t else []

/-- **The pages that it reads again**, if it is aborted. -/
def reverts (e : Engine) (t : TxnId) (committed : Bool) : List PageId :=
  if committed then [] else e.dirtied t

/-- They are pages that the transaction has changed. -/
theorem dirtyFor_of_mem_commits (h : p ∈ e.commits t committed) : e.DirtyFor t p := by
  cases committed with
  | true => exact mem_dirtied.1 h
  | false => cases h

theorem dirtyFor_of_mem_reverts (h : p ∈ e.reverts t committed) : e.DirtyFor t p := by
  cases committed with
  | true => cases h
  | false => exact mem_dirtied.1 h

/-- Every such page is written or read again. -/
theorem mem_commits_or_reverts (committed : Bool) (mine : e.DirtyFor t p) :
    p ∈ e.commits t committed ∨ p ∈ e.reverts t committed := by
  cases committed with
  | true => exact .inl (mem_dirtied.2 mine)
  | false => exact .inr (mem_dirtied.2 mine)

/-- **What the end of a transaction leaves.** -/
structure Outcome (t : TxnId) (committed : Bool) (e e' : Engine) : Prop where
  catalog : e'.catalog = e.catalog
  locks : e'.locks = e.locks.releaseAll t
  /-- A commit writes the pages that the transaction has changed, in the order of the cache. -/
  volume : e'.volume = e.written (e.commits t committed)
  /-- An abort moves them to the end of the cache. -/
  order : e'.cache.pages
    = e.cache.pages.filter (· ∉ e.reverts t committed) ++ e.reverts t committed
  /-- They are marked clean by a commit, and read again by an abort. -/
  page? : ∀ p, e'.page? p
    = if p ∈ e.commits t committed then (e.page? p).map (·.markDirty none)
      else if p ∈ e.reverts t committed then (e.readPage p).toOption
      else e.page? p

/-- **The end of a transaction cannot fail** as long as every page in the cache is a page of a
registered file. -/
theorem Fitting.outcome (fitting : e.Fitting) (t : TxnId) (committed : Bool) :
    ∃ e', (if committed then commit t else abort t).on e = (.ok (), e')
      ∧ Outcome t committed e e' := by
  have there : ∀ p ∈ e.dirtied t, ∃ frame, e.frame? p = some frame :=
    fun _ => exists_frame_of_dirtied
  have all : e.cache.pages.filter (· ∉ ([] : List PageId)) ++ [] = e.cache.pages := by simp
  cases committed with
  | true =>
    obtain ⟨e', run, left⟩ := fitting.writtenBack there
    have run : (flushPages t).on e = (.ok (), e') := run
    refine ⟨e'.releaseAll t, by rw [if_pos rfl, commit, Turn.on_ofFn, run], ?_⟩
    exact
      { catalog := left.catalog
        locks := congrArg (LockTable.releaseAll · t) left.locks
        volume := left.volume
        order := left.order.trans all.symm
        page? := left.page? }
  | false =>
    obtain ⟨e', run, left⟩ := fitting.readAgain nodup_dirtied there
    have run : (restorePages t).on e = (.ok (), e') := run
    refine ⟨e'.releaseAll t, by rw [if_neg Bool.false_ne_true, abort, Turn.on_ofFn, run], ?_⟩
    exact
      { catalog := left.catalog
        locks := congrArg (LockTable.releaseAll · t) left.locks
        volume := left.volume
        order := left.order
        page? := left.page? }

namespace Outcome

variable (outcome : Outcome t committed e e')

include outcome

/-- A page that the transaction has not changed is left as it is. -/
theorem page?_of_not_dirtyFor (other : ¬e.DirtyFor t p) : e'.page? p = e.page? p := by
  rw [outcome.page?, if_neg (mt dirtyFor_of_mem_commits other),
    if_neg (mt dirtyFor_of_mem_reverts other)]

/-- **Other transactions** have changed the pages that they had changed before. -/
theorem dirtyFor_iff (other : u ≠ t) : e'.DirtyFor u p ↔ e.DirtyFor u p := by
  by_cases mine : e.DirtyFor t p
  · -- a page that the transaction had changed is clean now
    refine iff_of_false (fun dirty => ?_) fun dirty => other (dirty.unique mine)
    obtain ⟨page, now, dirtier⟩ := dirtyFor_iff_page?.1 dirty
    rw [outcome.page?] at now
    split at now
    · obtain ⟨old, -, rfl⟩ := Option.map_eq_some_iff.1 now
      cases dirtier
    · rename_i unwritten
      rw [if_pos ((mem_commits_or_reverts committed mine).resolve_left unwritten)] at now
      cases read : e.readPage p with
      | error cause => rw [read] at now; cases now
      | ok d =>
        rw [read] at now
        cases now
        rw [(of_readPage read).2] at dirtier
        cases dirtier
  · rw [dirtyFor_iff_page?, dirtyFor_iff_page?, outcome.page?_of_not_dirtyFor mine]

/-- in the same order. -/
theorem dirtied_eq (other : u ≠ t) : e'.dirtied u = e.dirtied u := by
  have same (p : PageId) : p ∈ e'.dirtied u ↔ p ∈ e.dirtied u := by
    rw [mem_dirtied, mem_dirtied, outcome.dirtyFor_iff other]
  have apart (p : PageId) (hp : p ∈ e.reverts t committed) : p ∉ e.dirtied u := fun his =>
    other ((mem_dirtied.1 his).unique (dirtyFor_of_mem_reverts hp))
  rw [dirtied_eq_filter e' u, dirtied_eq_filter e u, outcome.order, List.filter_append]
  simp only [same]
  have none : (e.reverts t committed).filter (· ∈ e.dirtied u) = [] :=
    List.filter_eq_nil_iff.2 fun p hp => by simpa using apart p hp
  rw [none, List.append_nil, List.filter_filter]
  refine List.filter_congr fun p _ => ?_
  by_cases his : p ∈ e.dirtied u
  · simp [his, mt (apart p) (not_not.2 his)]
  · simp [his]

/-- **Every page in the cache is a page of a registered file still.** -/
theorem fitting (fitting : e.Fitting) (grows : e.volume.Grows e'.volume) : e'.Fitting := by
  intro p frame there
  have now : e'.page? p = some frame.page := by rw [Engine.page?, there]; rfl
  rw [outcome.catalog]
  refine Catalog.Fits.mono ?_ grows
  rw [outcome.page?] at now
  split at now
  · obtain ⟨page, was, is⟩ := Option.map_eq_some_iff.1 now
    exact is ▸ (fitting.fits was).alike (page.alike_markDirty none)
  · split at now
    · cases read : e.readPage p with
      | error cause => rw [read] at now; cases now
      | ok page =>
        rw [read] at now
        cases now
        exact Catalog.fits_of_readPage read
    · exact fitting.fits now

end Outcome

end Engine

end Tablespace
