import Mathlib.Logic.Relation
import Tablespace.Proofs.Heap.Insertion
import Tablespace.Proofs.Pool.Completion

/-!
# What a pool does, step by step

All that a pool does to an engine is made of **steps** (`Engine.Step`). Most of
them are **quiet** (`Engine.Quiet`): locks change, pages are touched, loaded and
make room, bytes change that are no rows, and a file grows by an empty page. In
a quiet step no row changes, and no page becomes dirty or clean. Three steps are
not quiet: a page is thrown out that may be dirty, a page is marked with a row
changed on it, and a page is written to its file. Which files may grow is a
matter of who does the step, so it is left open.

What is said of steps here holds of any engine that is in order
(`Engine.Orderly`). It need not be coherent: pages in the cache may be of files
that the catalog does not know, or knows by other tables, and whoever has changed
a page need not hold it. So it can be used where tables are replaced while their
pages are in the cache, and where locks are given up early.

Loads are numbered, so it can be told whether a page has stayed in the cache
(`Engine.Steps.origin`).

A fetch is quiet (`Engine.quietly_fetch`). It gives the page that is seen, under
the lock, unless the lock is not to be had, or there is no room for the page, or
it cannot be read (`Engine.fetches_fetch`).
-/

namespace Tablespace

namespace Engine

/-- **An engine in order**: its locks are sound, and the pages in its cache go by
their names and by loads that there were. -/
structure Orderly (e : Engine) : Prop where
  locks : e.locks.Sound
  named : ∀ p frame, e.frame? p = some frame → frame.page.id = p
  numbered : ∀ p frame, e.frame? p = some frame → frame.load < e.loads

/-- **A step in which no row changes.** Files may grow as `grow` says. -/
inductive Quiet (grow : HeapFile → Volume → Prop) (e : Engine) : Engine → Prop
  /-- Locks change. -/
  | relock (locks : LockTable) (sound : locks.Sound) : Quiet grow e { e with locks := locks }
  /-- A page is touched. -/
  | touch (p : PageId) (frame : Frame) (there : e.frame? p = some frame) :
      Quiet grow e { e with cache := e.cache.insert p frame }
  /-- A clean page makes room. -/
  | evict (p : PageId) (frame : Frame) (there : e.frame? p = some frame)
      (clean : frame.page.dirtier = none) : Quiet grow e (e.discard p)
  /-- A page is loaded. -/
  | load (p : PageId) (d : Page) (absent : e.frame? p = none) (read : e.readPage p = .ok d) :
      Quiet grow e (e.keep d)
  /-- Bytes change that are no rows. -/
  | scribble (q : Page) (frame : Frame) (there : e.frame? q.id = some frame)
      (same : frame.page.SameRows q) : Quiet grow e (e.alter q)
  /-- A page is appended to a file. -/
  | append (f : HeapFile) (may : grow f e.volume) :
      Quiet grow e { e with volume := (f.appendPage e.volume).2 }

/-- **A step of a pool.** -/
inductive Step (grow : HeapFile → Volume → Prop) (e : Engine) : Engine → Prop
  | quiet {e' : Engine} (quiet : Quiet grow e e') : Step grow e e'
  /-- A page is thrown out, clean or not. -/
  | discard (p : PageId) : Step grow e (e.discard p)
  /-- A row is changed on a page, and the page is marked. -/
  | store (p : PageId) (frame : Frame) (q : Page) (cache : Cache Frame)
      (there : e.frame? p = some frame) (after : cache.peek? p = some ⟨q, frame.load⟩)
      (others : ∀ r, r ≠ p → cache.peek? r = e.frame? r) (alike : frame.page.Alike q)
      (dirty : q.dirtier ≠ none) : Step grow e { e with cache := cache }
  /-- A page is written to the file that the catalog names, and is clean then. -/
  | write (p : PageId) (frame : Frame) (g : HeapFile) (there : e.frame? p = some frame)
      (file : e.catalog.file p.table = .ok g) (size : frame.page.image.size = g.pageSize) :
      Step grow e (e.wroteBack g p frame)

/-- Quiet steps, one after the other. -/
abbrev Quietly (grow : HeapFile → Volume → Prop) : Engine → Engine → Prop :=
  Relation.ReflTransGen (Quiet grow)

/-- Steps, one after the other. -/
abbrev Steps (grow : HeapFile → Volume → Prop) : Engine → Engine → Prop :=
  Relation.ReflTransGen (Step grow)

variable {e e' e'' : Engine} {grow : HeapFile → Volume → Prop} {f : HeapFile} {t u : TxnId}
  {p : PageId} {q d : Page} {mode : LockMode} {halt : Halt} {frame : Frame} {row stored : Tuple}

/-! ## What becomes of a page in the cache -/

/-- In a quiet step a page stays with its rows, makes room or is loaded. -/
theorem Quiet.recached (quiet : Quiet grow e e') (p : PageId) : e.Recached p (e'.frame? p) := by
  have still : e.Recached p (e.frame? p) := recached_of_room (fun _ => .inl rfl) p
  cases quiet with
  | relock locks sound => exact still
  | append f may => exact still
  | touch q frame there =>
    rw [frame?, Cache.peek?_insert]
    split
    · rename_i same
      exact .kept frame frame (same ▸ there) (.refl _) fun _ => rfl
    · exact still
  | evict q frame there clean =>
    rw [frame?, discard, Cache.peek?_erase]
    split
    · rename_i same
      subst same
      refine .absent fun g here => ?_
      rw [there] at here
      cases here
      exact clean
    · exact still
  | load q d absent read =>
    rw [frame?, keep, Cache.peek?_insert, (of_readPage read).1]
    split
    · rename_i same
      subst same
      exact .loaded ⟨d, e.loads⟩ absent read
    · exact still
  | scribble q frame there same =>
    rw [frame?_alter there]
    split
    · rename_i named
      exact .kept frame _ (named ▸ there) same.toSameFrame same.rows
    · exact still

/-- **Where a page in the cache is from**: it was there before, by the same load,
or it has just been read from the file that the catalog names. -/
theorem Step.origin (step : Step grow e e') {frame' : Frame} (there : e'.frame? p = some frame') :
    (∃ frame, e.frame? p = some frame ∧ frame.load = frame'.load ∧ frame.page.Alike frame'.page)
      ∨ e.frame? p = none ∧ frame'.load = e.loads ∧ e'.loads = e.loads + 1
        ∧ e.readPage p = .ok frame'.page := by
  have still (same : e'.frame? p = e.frame? p) : (∃ frame, e.frame? p = some frame
      ∧ frame.load = frame'.load ∧ frame.page.Alike frame'.page)
      ∨ e.frame? p = none ∧ frame'.load = e.loads ∧ e'.loads = e.loads + 1
        ∧ e.readPage p = .ok frame'.page :=
    .inl ⟨frame', same ▸ there, rfl, .refl _⟩
  cases step with
  | quiet quiet =>
    cases quiet with
    | relock locks sound => exact still rfl
    | append f may => exact still rfl
    | touch q frame here =>
      rw [frame?, Cache.peek?_insert] at there
      split at there
      · rename_i same
        cases there
        exact .inl ⟨_, same ▸ here, rfl, .refl _⟩
      · exact .inl ⟨frame', there, rfl, .refl _⟩
    | evict q frame here clean =>
      rw [frame?, Engine.discard, Cache.peek?_erase] at there
      split at there
      · cases there
      · exact .inl ⟨frame', there, rfl, .refl _⟩
    | load q d absent read =>
      rw [frame?, keep, Cache.peek?_insert, (of_readPage read).1] at there
      split at there
      · rename_i same
        subst same
        cases there
        exact .inr ⟨absent, rfl, rfl, read⟩
      · exact .inl ⟨frame', there, rfl, .refl _⟩
    | scribble q frame here same =>
      rw [frame?_alter here] at there
      split at there
      · rename_i named
        cases there
        exact .inl ⟨frame, named ▸ here, rfl, same.toAlike⟩
      · exact .inl ⟨frame', there, rfl, .refl _⟩
  | discard q =>
    rw [frame?, Engine.discard, Cache.peek?_erase] at there
    split at there
    · cases there
    · exact .inl ⟨frame', there, rfl, .refl _⟩
  | store q frame page cache here after others alike dirty =>
    by_cases same : p = q
    · subst same
      rw [show frame? { e with cache := cache } p = _ from after] at there
      cases there
      exact .inl ⟨frame, here, rfl, alike⟩
    · exact still (others p same)
  | write q frame g here file size =>
    rw [frame?_wroteBack here] at there
    split at there
    · rename_i same
      cases there
      exact .inl ⟨frame, same ▸ here, rfl, frame.page.alike_markDirty none⟩
    · exact .inl ⟨frame', there, rfl, .refl _⟩

theorem Step.catalog (step : Step grow e e') : e'.catalog = e.catalog := by
  cases step with
  | quiet quiet => cases quiet <;> rfl
  | discard | store | write => rfl

/-- Loads are numbered on. -/
theorem Step.loads (step : Step grow e e') : e.loads ≤ e'.loads := by
  cases step with
  | quiet quiet =>
    cases quiet with
    | load => exact Nat.le_succ _
    | relock | touch | evict | scribble | append => exact Nat.le_refl _
  | discard | store | write => exact Nat.le_refl _

/-- No step makes a file shorter. -/
theorem Step.grows (step : Step grow e e') : e.volume.Grows e'.volume := by
  cases step with
  | quiet quiet =>
    cases quiet with
    | append f may => exact HeapFile.grows_writeAt
    | relock | touch | evict | load | scribble => exact fun _ => Nat.le_refl _
  | discard | store => exact fun _ => Nat.le_refl _
  | write => exact HeapFile.grows_writeAt

/-- **A step leaves an engine in order.** -/
theorem Step.orderly (step : Step grow e e') (orderly : e.Orderly) : e'.Orderly where
  locks := by
    cases step with
    | quiet quiet =>
      cases quiet with
      | relock locks sound => exact sound
      | touch | evict | load | scribble | append => exact orderly.locks
    | discard | store | write => exact orderly.locks
  named p frame' there := by
    rcases step.origin there with ⟨frame, before, -, alike⟩ | ⟨-, -, -, read⟩
    · exact alike.id.trans (orderly.named p frame before)
    · exact (of_readPage read).1
  numbered p frame' there := by
    rcases step.origin there with ⟨frame, before, same, -⟩ | ⟨-, now, next, -⟩
    · rw [← same]
      exact Nat.lt_of_lt_of_le (orderly.numbered p frame before) step.loads
    · omega

theorem Steps.catalog (steps : Steps grow e e') : e'.catalog = e.catalog := by
  induction steps with
  | refl => rfl
  | tail _ step ih => exact step.catalog.trans ih

theorem Steps.orderly (steps : Steps grow e e') (orderly : e.Orderly) : e'.Orderly := by
  induction steps with
  | refl => exact orderly
  | tail _ step ih => exact step.orderly ih

theorem Steps.grows (steps : Steps grow e e') : e.volume.Grows e'.volume := by
  induction steps with
  | refl => exact fun _ => Nat.le_refl _
  | tail _ step ih => exact fun path => Nat.le_trans (ih path) (step.grows path)

theorem Steps.loads (steps : Steps grow e e') : e.loads ≤ e'.loads := by
  induction steps with
  | refl => exact Nat.le_refl _
  | tail _ step ih => exact Nat.le_trans ih step.loads

/-- **Where a page in the cache is from**, after some steps: it was there before, by the
same load, or it was loaded since, from the file that the catalog names. -/
theorem Steps.origin (steps : Steps grow e e') {frame' : Frame}
    (there : e'.frame? p = some frame') :
    (∃ frame, e.frame? p = some frame ∧ frame.load = frame'.load ∧ frame.page.Alike frame'.page)
      ∨ e.loads ≤ frame'.load
        ∧ ∃ f, e.catalog.file p.table = .ok f ∧ f.Fits e'.volume p frame'.page := by
  induction steps generalizing frame' with
  | refl => exact .inl ⟨frame', there, rfl, .refl _⟩
  | tail steps step ih =>
    rcases step.origin there with ⟨frame, before, same, alike⟩ | ⟨-, now, -, read⟩
    · rcases ih before with ⟨old, first, load, like⟩ | ⟨later, f, file, fits⟩
      · exact .inl ⟨old, first, load.trans same, like.trans alike⟩
      · exact .inr ⟨same ▸ later, f, file,
          (fits.alike alike).mono (HeapFile.pages_le_of_grows step.grows)⟩
    · obtain ⟨f, file, read⟩ := file_of_readPage read
      rw [Steps.catalog steps] at file
      exact .inr ⟨now ▸ Steps.loads steps, f, file,
        (HeapFile.fits_of_readPage read).mono (HeapFile.pages_le_of_grows step.grows)⟩

theorem Quietly.steps (quietly : Quietly grow e e') : Steps grow e e' :=
  Relation.ReflTransGen.mono (fun _ _ quiet => Step.quiet quiet) _ _ quietly

theorem Quietly.catalog (quietly : Quietly grow e e') : e'.catalog = e.catalog :=
  Steps.catalog (Quietly.steps quietly)

theorem Quietly.orderly (quietly : Quietly grow e e') (orderly : e.Orderly) : e'.Orderly :=
  Steps.orderly (Quietly.steps quietly) orderly

/-- **In a quiet step no page becomes dirty or clean.** -/
theorem Quietly.dirtyFor_iff (quietly : Quietly grow e e') : e'.DirtyFor u p ↔ e.DirtyFor u p := by
  induction quietly with
  | refl => rfl
  | tail _ quiet ih => exact (quiet.recached p).dirtyFor_iff.trans ih

/-! ## Fetching -/

variable (grow) in
/-- Room is made by a clean page. -/
theorem quietly_makeRoom (p : PageId) (e : Engine) : Quietly grow e ((makeRoom p).on e).2 := by
  have evicts : Quietly grow e (evict.on e).2 := by
    cases oldest : e.cache.oldest? clean with
    | none => rw [on_evict_of_none oldest]
    | some victim =>
      obtain ⟨frame, there, wanted⟩ := Cache.oldest?_eq_some oldest
      rw [on_evict_of_some oldest]
      exact .single (.evict victim frame there (by simpa [clean, Page.isDirty] using wanted))
  rw [makeRoom, Turn.on_bind_ok (Turn.on_get e)]
  split
  · exact evicts
  · exact .refl

variable (grow) in
/-- **A load is quiet.** -/
theorem quietly_load (p : PageId) (e : Engine) : Quietly grow e ((load p).on e).2 := by
  cases there : e.frame? p with
  | some frame =>
    rw [on_load_of_frame there]
    exact .single (.touch p frame there)
  | none =>
    have room := quietly_makeRoom grow p e
    rw [on_load_of_absent there]
    cases made : (makeRoom p).on e with | mk outcome roomy =>
    rw [made] at room
    cases outcome with
    | error halt => exact room
    | ok _ =>
      dsimp only
      cases read : roomy.readPage p with
      | error cause => exact room
      | ok d =>
        obtain ⟨cache, rfl, pages, -⟩ := peek?_makeRoom made
        have absent : frame? { e with cache := cache } p = none := by
          rcases pages p with same | ⟨gone, -⟩
          · exact same.trans there
          · exact gone
        exact room.tail (.load p d absent read)

variable (grow) in
/-- **A fetch is quiet.** -/
theorem quietly_fetch (orderly : e.Orderly) (t : TxnId) (p : PageId) (mode : LockMode) :
    Quietly grow e ((fetch t p mode).on e).2 := by
  have locked : Quietly grow e { e with locks := (e.locks.request t p mode).2 } :=
    .single (.relock _ orderly.locks.request)
  rw [fetch, Turn.on_bind, on_lock]
  cases (e.locks.request t p mode).1 with
  | granted => exact locked.trans (quietly_load grow p _)
  | blocked => exact locked
  | deadlock holder => exact locked

/-- **Whether room can be made** for a page in the cache. -/
def HasRoom (e : Engine) : Prop :=
  e.cache.size < e.capacity ∨ ∃ p frame, e.frame? p = some frame ∧ frame.page.dirtier = none

/-- **What a load comes to**: the page that is seen, in the cache; or there is no
room, or the page cannot be read. -/
def Loads (p : PageId) (e : Engine) : Except Halt Page × Engine → Prop
  | (.ok q, e') => e.pageSeen p = .ok q ∧ (∃ frame, e'.frame? p = some frame ∧ frame.page = q)
    ∧ (e.HasRoom → e'.HasRoom)
  | (.error halt, _) => e.frame? p = none ∧ ∃ cause, halt = .fault cause
    ∧ (¬e.HasRoom ∨ e.readPage p = .error cause)

theorem not_hasRoom_of_evict (full : e.capacity ≤ e.cache.size)
    (none : e.cache.oldest? clean = none) : ¬e.HasRoom := by
  rintro (room | ⟨p, frame, there, undirtied⟩)
  · omega
  · have dirty := Cache.oldest?_eq_none_iff.1 none _ (Cache.mem_of_peek? there)
    rw [clean, Page.isDirty, undirtied] at dirty
    cases dirty

/-- **What a load does.** -/
theorem loads_load (p : PageId) (e : Engine) : Loads p e ((load p).on e) := by
  cases there : e.frame? p with
  | some frame =>
    rw [on_load_of_frame there]
    refine ⟨pageSeen_of_frame there, ⟨frame, Cache.peek?_insert.trans (if_pos rfl), rfl⟩, ?_⟩
    rintro (room | ⟨q, g, here, undirtied⟩)
    · exact .inl ((Cache.size_insert_of_some there).symm ▸ room)
    · refine .inr ⟨q, g, Cache.peek?_insert.trans ?_, undirtied⟩
      split
      · rename_i same
        subst same
        exact there.symm.trans here
      · exact here
  | none =>
    rw [on_load_of_absent there]
    cases made : (makeRoom p).on e with | mk outcome roomy =>
    obtain ⟨cache, rfl, pages, full⟩ := peek?_makeRoom made
    cases outcome with
    | error halt =>
      refine ⟨there, .poolFull, full halt rfl, .inl ?_⟩
      rw [on_makeRoom_of_absent there] at made
      split at made
      · rename_i full
        cases oldest : e.cache.oldest? clean with
        | none => exact not_hasRoom_of_evict full oldest
        | some victim => rw [on_evict_of_some oldest] at made; cases made
      · cases made
    | ok _ =>
      have same : readPage { e with cache := cache } p = e.readPage p := rfl
      dsimp only
      rw [same]
      cases read : e.readPage p with
      | error cause => exact ⟨there, cause, rfl, .inr read⟩
      | ok d =>
        have here : (keep { e with cache := cache } d).frame? p = some ⟨d, e.loads⟩ :=
          Cache.peek?_insert.trans (if_pos (of_readPage read).1.symm)
        exact ⟨(pageSeen_of_absent there).trans read, ⟨_, here, rfl⟩,
          fun _ => .inr ⟨p, _, here, (of_readPage read).2⟩⟩

/-- A load has nothing to do with locks or files. -/
theorem locks_volume_load (p : PageId) (e : Engine) :
    ((load p).on e).2.locks = e.locks ∧ ((load p).on e).2.volume = e.volume := by
  cases loaded : (load p).on e with | mk outcome e' =>
  cases outcome with
  | ok q =>
    obtain ⟨looks, locks, -⟩ := load_ok ⟨0⟩ loaded
    exact ⟨locks, looks.volume⟩
  | error halt =>
    obtain ⟨looks, locks, -⟩ := load_error ⟨0⟩ loaded
    exact ⟨locks, looks.volume⟩

/-- **What a fetch comes to**: the page that is seen, under the lock; or the lock
is not to be had, or it is taken and the page is not to be had. -/
def Fetches (t : TxnId) (p : PageId) (mode : LockMode) (e : Engine) :
    Except Halt Page × Engine → Prop
  | (.ok q, e') => e'.locks.mode?
      = LockModes.set e.locks.mode? t p (some (LockMode.join (e.locks.mode? t p) mode))
    ∧ Loads p e (.ok q, e')
  | (.error halt, e') => e'.locks.mode? = e.locks.mode?
      ∧ (halt = .wait ∨ ∃ holder, halt = .fault (.deadlock t holder))
    ∨ e'.locks.mode?
        = LockModes.set e.locks.mode? t p (some (LockMode.join (e.locks.mode? t p) mode))
      ∧ Loads p e (.error halt, e')

/-- **What a fetch does.** It does nothing to the files. -/
theorem fetches_fetch (t : TxnId) (p : PageId) (mode : LockMode) (e : Engine) :
    Fetches t p mode e ((fetch t p mode).on e) ∧ ((fetch t p mode).on e).2.volume = e.volume := by
  rw [fetch, Turn.on_bind, on_lock]
  cases answer : (e.locks.request t p mode).1 with
  | granted =>
    have modes : (e.locks.request t p mode).2.mode? = _ := LockTable.mode?_request_of_granted answer
    obtain ⟨locks, volume⟩ := locks_volume_load p { e with locks := (e.locks.request t p mode).2 }
    have loads := loads_load p { e with locks := (e.locks.request t p mode).2 }
    dsimp only
    generalize (load p).on { e with locks := (e.locks.request t p mode).2 } = r at locks volume loads
    obtain ⟨outcome, e'⟩ := r
    have modes' : e'.locks.mode? = _ := (congrArg LockTable.mode? locks).trans modes
    cases outcome with
    | ok q => exact ⟨⟨modes', loads⟩, volume⟩
    | error halt => exact ⟨.inr ⟨modes', loads⟩, volume⟩
  | blocked =>
    have modes : (e.locks.request t p mode).2.mode? = e.locks.mode? :=
      LockTable.mode?_request_of_not_granted (by rw [answer]; simp)
    exact ⟨.inl ⟨modes, .inl rfl⟩, rfl⟩
  | deadlock holder =>
    have modes : (e.locks.request t p mode).2.mode? = e.locks.mode? :=
      LockTable.mode?_request_of_not_granted (by rw [answer]; simp)
    exact ⟨.inl ⟨modes, .inr ⟨holder, rfl⟩⟩, rfl⟩

end Engine

end Tablespace
