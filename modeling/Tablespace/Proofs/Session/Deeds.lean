import Tablespace.Proofs.Page.Slots
import Tablespace.Proofs.Pool.Finish
import Tablespace.Proofs.Session.Run

/-!
# The states that a pool can come to

Whatever is done to a pool is a **deed** (`Deed`): what its transactions ask
for, what is done to a page by someone who has it in hand and looks at no lock,
the writing of pages at any time, the registering and forgetting of tables, and
the writing of files past the pool. The methods of a cursor are no deeds of
their own, for all that they do to a pool is to fetch pages.

Two things are asked of those who do them (`Deed.Allowed`). A table is never
registered with another file than the one that it has at home, and no file is
cut short. Nothing else: an insertion or a deletion need not be marked, a page
may be marked by anybody and for anybody, and a transaction may go on after it
has ended.

Every state that a pool can come to is anchored (`Engine.Reachable.anchored`).
So the end of a transaction leaves nothing behind in any of them, whatever its
outcome (`Engine.Reachable.completes`).
-/

namespace Tablespace

/-- **What is done to a pool.** -/
inductive Deed where
  /-- A lock is asked for. -/
  | lock (txn : TxnId) (page : PageId) (mode : LockMode)
  /-- A lock is given up. -/
  | release (txn : TxnId) (page : PageId)
  /-- An exclusive lock is turned into a shared one. -/
  | downgrade (txn : TxnId) (page : PageId)
  /-- A page is fetched. -/
  | fetch (txn : TxnId) (page : PageId) (mode : LockMode)
  /-- An insertion goes on, from wherever it has come to. -/
  | insert (txn : TxnId) (file : HeapFile) (row : Tuple) (mark : Bool) (stage : InsertionStage)
  /-- A row is deleted by its place. -/
  | delete (txn : TxnId) (row : Tuple) (record : RecordId) (mark : Bool)
  /-- Something is done to a page of the cache that is in hand. -/
  | handle (page : PageId) (call : PageCall)
  /-- A page of the cache that is in hand is marked. -/
  | mark (page : PageId) (dirtier : Option TxnId)
  /-- A page is written back if it is dirty. -/
  | flushPage (page : PageId)
  /-- The pages that a transaction has changed are written back. -/
  | flushPages (txn : TxnId)
  /-- All dirty pages are written back. -/
  | flushAll
  /-- A page is thrown out of the cache. -/
  | discard (page : PageId)
  /-- A transaction is ended. -/
  | complete (txn : TxnId) (committed : Bool)
  /-- A table is registered. -/
  | register (file : HeapFile) (name : String)
  /-- All tables are forgotten. -/
  | forget
  /-- A page is written to a file past the cache. -/
  | write (file : HeapFile) (page : Page)
  /-- Files are made or written by somebody else. -/
  | store (volume : Volume)

/-- **What is asked of those who do it.** -/
def Deed.Allowed (home : Catalog) (e : Engine) : Deed → Prop
  | register file _ => home.file file.table = .ok file
  | store volume => e.volume.Grows volume
  | _ => True

namespace Engine

/-- **The engine after a deed.** -/
def perform (e : Engine) : Deed → Engine
  | .lock t page mode => ((onLocks (LockTable.acquire t page mode)).on e).2
  | .release t page => e.changeLocks (·.release t page)
  | .downgrade t page => e.changeLocks (·.downgrade t page)
  | .fetch t page mode => ((fetch t page mode).on e).2
  | .insert t file row mark stage => ((Call.insertRow t file row mark).on (stage, e)).2.2
  | .delete t row record mark => ((Call.deleteRow t row record mark).on e).2
  | .handle page call =>
    { e with cache := e.cache.modify page fun frame =>
      { frame with page := (frame.page.perform call).2 } }
  | .mark page dirtier =>
    { e with cache := e.cache.modify page fun frame =>
      { frame with page := frame.page.markDirty dirtier } }
  | .flushPage page => ((flushPage page).on e).2
  | .flushPages t => ((flushPages t).on e).2
  | .flushAll => (flushAll.on e).2
  | .discard page => e.discard page
  | .complete t committed => ((if committed then commit t else abort t).on e).2
  | .register file name => e.changeCatalog (·.add file name)
  | .forget => e.changeCatalog fun _ => .empty
  | .write file page =>
    match file.writePage e.volume page with
    | .ok volume => { e with volume := volume }
    | .error _ => e
  | .store volume => { e with volume := volume }

/-- **The states that a pool can come to**, when tables are registered with the
files that they have at home. -/
inductive Reachable (home : Catalog) : Engine → Prop where
  /-- The pool is new. -/
  | start {config : Config} {volume : Volume} {catalog : Catalog} {e : Engine}
      (registered : ∀ entry ∈ catalog.entries, home.file entry.table = .ok entry.file)
      (h : Engine.start config volume catalog = .ok e) : Reachable home e
  /-- Something is done to it. -/
  | perform {e : Engine} (before : Reachable home e) (deed : Deed)
      (allowed : deed.Allowed home e) : Reachable home (e.perform deed)

variable {e e' : Engine} {home : Catalog} {t u : TxnId} {p : PageId} {written : List PageId}

/-! ## Reachable states are anchored -/

/-- An insertion leaves an engine anchored, whether the page is marked or
not. -/
theorem Anchored.insertRow (anchored : e.Anchored home) (t : TxnId) (file : HeapFile) (row : Tuple)
    (mark : Bool) (stage : InsertionStage) :
    ((Call.insertRow t file row mark).on (stage, e)).2.2.Anchored home := by
  have inserted : HeapFile.Anchors home ((file.insert t row).on (stage, e)) := by
    rw [HeapFile.on_insert]
    exact HeapFile.anchors_insertFrom file t row _ stage anchored
  have done : Turn.Yields (fun _ s => s.2.Anchored home) (·.2.Anchored home)
      ((Call.insertRow t file row mark).on (stage, e)) := by
    refine Turn.Yields.bind inserted fun (stored, q) (stage', e') ⟨anchored', fits⟩ => ?_
    cases mark with
    | false => exact anchored'
    | true =>
      have marked : Turn.Yields (fun _ s => s.2.Anchored home) (·.2.Anchored home)
          ((HeapFile.inEngine (Engine.install t q)).on (stage', e')) := by
        have installed := anchored'.install t fits
        rw [HeapFile.inEngine, Turn.on_within]
        cases ran : (Engine.install t q).on e' with | mk outcome e'' =>
        rw [ran] at installed
        cases outcome with
        | ok _ => exact installed.1
        | error halt => exact installed
      exact Turn.Yields.bind marked fun _ _ h => h
  exact done.state fun _ _ h => h

/-- A deletion leaves an engine anchored, whether the page is marked or not. -/
theorem Anchored.deleteRow (anchored : e.Anchored home) (t : TxnId) (row : Tuple)
    (record : RecordId) (mark : Bool) :
    ((Call.deleteRow t row record mark).on e).2.Anchored home := by
  have done : Anchors home (fun _ _ => True) ((Call.deleteRow t row record mark).on e) := by
    refine Turn.Yields.bind (anchored.deleteAt t row record) fun q e' ⟨anchored', fits⟩ => ?_
    cases mark with
    | false => exact ⟨anchored', trivial⟩
    | true => exact Turn.Yields.bind (anchored'.install t fits) fun _ _ h => h
  exact done.anchored

/-- **Every deed leaves an engine anchored.** -/
theorem Anchored.perform (anchored : e.Anchored home) {deed : Deed}
    (allowed : deed.Allowed home e) : (e.perform deed).Anchored home := by
  cases deed with
  | lock t page mode => exact (anchored.lock t page mode).anchored
  | release t page => exact anchored.relock anchored.locks.release
  | downgrade t page => exact anchored.relock anchored.locks.downgrade
  | fetch t page mode => exact (anchored.fetch t page mode).anchored
  | insert t file row mark stage => exact anchored.insertRow t file row mark stage
  | delete t row record mark => exact anchored.deleteRow t row record mark
  | handle page call =>
    exact anchored.modify fun frame there =>
      (anchored.cached page frame there).alike (frame.page.alike_perform call)
  | mark page dirtier =>
    exact anchored.modify fun frame there =>
      (anchored.cached page frame there).alike (frame.page.alike_markDirty dirtier)
  | flushPage page => exact (anchored.flushPage page).anchored
  | flushPages t => exact (anchored.flushPages t).anchored
  | flushAll => exact anchored.flushAll.anchored
  | discard page => exact anchored.erase page
  | complete t committed =>
    obtain ⟨e', done, finished⟩ := anchored.complete t committed
    rw [Engine.perform, done]
    exact finished.anchored
  | register file name => exact anchored.register allowed name
  | forget => exact anchored.clear
  | write file page =>
    rw [Engine.perform]
    cases written : file.writePage e.volume page with
    | ok volume => exact anchored.grow (HeapFile.grows_writePage written)
    | error halt => exact anchored
  | store volume => exact anchored.grow allowed

/-- **Every state that a pool can come to is anchored**, if the tables have
files of their own. -/
theorem Reachable.anchored (reachable : e.Reachable home) (apart : home.Apart) :
    e.Anchored home := by
  induction reachable with
  | start registered h => exact anchored_of_start apart registered h
  | perform _ deed allowed ih => exact ih.perform allowed

/-! ## The end of a transaction -/

/-- **What the end of a transaction comes to**, by commit or by abort, and
whatever its outcome. -/
structure Completed (home : Catalog) (t : TxnId) (committed : Bool) (e : Engine)
    (outcome : Except Halt Unit) (e' : Engine) : Prop where
  /-- The first page that it has changed and whose table is not registered is to
  blame. -/
  blamed : outcome = e.blame (e.dirtied t)
  /-- No page is dirty for the transaction. -/
  undirtied : ∀ p, ¬e'.DirtyFor t p
  /-- It holds no lock. -/
  unlocked : (∀ p, e'.locks.mode? t p = none) ∧ e'.locks.pagesOf t = []
  /-- It waits for nobody. -/
  unwaiting : e'.locks.waits.isWaiting t = false ∧ e'.locks.waits.successors t = []
  /-- Other transactions hold the locks that they held, and wait for those that
  they waited for. -/
  locks : ∀ u, u ≠ t → (∀ p, e'.locks.mode? u p = e.locks.mode? u p)
    ∧ e'.locks.waits.successors u = e.locks.waits.successors u
  /-- Pages of the cache that were not dirty for it are as they were. -/
  frames : ∀ p, ¬e.DirtyFor t p → e'.frame? p = e.frame? p
  /-- So are pages of the files, and all bytes that are of no page that was dirty
  for it. -/
  files : (∀ p, ¬e.DirtyFor t p → home.readPage e'.volume p = home.readPage e.volume p)
    ∧ ∀ path i, (∀ p, e.DirtyFor t p → ¬home.Owns p path i) →
      (e'.volume.content path).toList[i]? = (e.volume.content path).toList[i]?
  /-- No page comes into the cache that was not there. -/
  count : e'.cache.size ≤ e.cache.size
  /-- A commit that succeeds has written every page, and moved none. -/
  commits : committed = true → outcome = .ok () → e'.cache.pages = e.cache.pages
    ∧ ∀ p frame, e.frame? p = some frame → frame.page.dirtier = some t →
      e'.frame? p = some frame.cleaned ∧ home.readPage e'.volume p = .ok frame.cleaned.page
  /-- An abort writes nothing, and if it succeeds it has read every page
  again. -/
  aborts : committed = false → e'.volume = e.volume
    ∧ (outcome = .ok () → ∀ p, e.DirtyFor t p → ∃ frame, e'.frame? p = some frame
      ∧ frame.page.dirtier = none ∧ home.readPage e'.volume p = .ok frame.page)
  /-- Otherwise, each page is written, or it is in its file as it was: then it is
  read again, or gone if its table is not registered. -/
  fails : outcome ≠ .ok () → ∀ p frame, e.frame? p = some frame → frame.page.dirtier = some t →
    e'.frame? p = some frame.cleaned ∧ home.readPage e'.volume p = .ok frame.cleaned.page
      ∨ home.readPage e'.volume p = home.readPage e.volume p
        ∧ (e.registered p = false ∧ e'.frame? p = none
          ∨ ∃ again, e'.frame? p = some again ∧ again.page.dirtier = none
            ∧ home.readPage e'.volume p = .ok again.page)

section Finished

variable (finished : Finished home t written e e')

include finished

/-- Pages that were written, read again or are gone are not dirty. -/
theorem Finished.not_dirtyFor (p : PageId) : ¬e'.DirtyFor t p := by
  rintro ⟨frame, there, dirtier⟩
  by_cases mine : e.DirtyFor t p
  · by_cases done : p ∈ written
    · obtain ⟨old, was, -⟩ := mine
      rw [(finished.stored p done old was).1] at there
      cases there
      cases dirtier
    · cases registered : e.registered p with
      | true =>
        obtain ⟨again, now, read⟩ := finished.restored p mine done registered
        rw [now] at there
        cases there
        rw [(Catalog.of_readPage read).2] at dirtier
        cases dirtier
      | false =>
        rw [finished.gone p mine done registered] at there
        cases there
  · exact mine ⟨frame, (finished.others p mine).symm.trans there, dirtier⟩

/-- A page that was read again is clean and as in its file. -/
theorem Finished.reread (mine : e.DirtyFor t p) (unwritten : p ∉ written)
    (registered : e.registered p = true) :
    ∃ again, e'.frame? p = some again ∧ again.page.dirtier = none
      ∧ home.readPage e'.volume p = .ok again.page := by
  obtain ⟨again, now, read⟩ := finished.restored p mine unwritten registered
  exact ⟨again, now, (Catalog.of_readPage read).2, (finished.unwritten p unwritten).trans read⟩

/-- **What a page comes to that was dirty**: it was written, read again, or is
gone. -/
theorem Finished.page {frame : Frame} (there : e.frame? p = some frame)
    (dirtier : frame.page.dirtier = some t) :
    e'.frame? p = some frame.cleaned ∧ home.readPage e'.volume p = .ok frame.cleaned.page
      ∨ home.readPage e'.volume p = home.readPage e.volume p
        ∧ (e.registered p = false ∧ e'.frame? p = none
          ∨ ∃ again, e'.frame? p = some again ∧ again.page.dirtier = none
            ∧ home.readPage e'.volume p = .ok again.page) := by
  have mine : e.DirtyFor t p := ⟨frame, there, dirtier⟩
  by_cases done : p ∈ written
  · exact .inl (finished.stored p done frame there)
  · refine .inr ⟨finished.unwritten p done, ?_⟩
    cases registered : e.registered p with
    | true => exact .inr (finished.reread mine done registered)
    | false => exact .inl ⟨rfl, finished.gone p mine done registered⟩

end Finished

/-- **The end of a transaction leaves nothing behind**, whatever its outcome, in
every state that a pool can come to. -/
theorem Reachable.completes (reachable : e.Reachable home) (apart : home.Apart) (t : TxnId)
    (committed : Bool) :
    Completed home t committed e ((if committed then commit t else abort t).on e).1
      ((if committed then commit t else abort t).on e).2 := by
  have anchored := reachable.anchored apart
  obtain ⟨e', done, finished⟩ := anchored.complete t committed
  rw [done]
  have modes : e'.locks.mode? = LockModes.without e.locks.mode? t := by
    rw [finished.locks, anchored.locks.mode?_releaseAll]
  have waits : e'.locks.waits = e.locks.waits.drop t := by
    rw [finished.locks, LockTable.waits_releaseAll]
  have unlocked (p : PageId) : e'.locks.mode? t p = none := by
    rw [modes, LockModes.without, if_pos rfl]
  -- only pages that are dirty for the transaction are written
  have unwritten (p : PageId) (clean : ¬e.DirtyFor t p) : p ∉ e.writes t committed :=
    mt dirtyFor_of_mem_writes clean
  exact
    { blamed := rfl
      undirtied := finished.not_dirtyFor
      unlocked := by
        refine ⟨unlocked, List.eq_nil_iff_forall_not_mem.2 fun p hp => ?_⟩
        exact (finished.anchored.locks.mem_pagesOf_iff.1 hp) (unlocked p)
      unwaiting := by
        rw [waits, WaitGraph.isWaiting_drop, WaitGraph.successors_drop, if_pos rfl]
        simp
      locks := fun u other => by
        rw [modes, waits, WaitGraph.successors_drop, if_neg other]
        exact ⟨fun p => by rw [LockModes.without, if_neg other], rfl⟩
      frames := finished.others
      files := ⟨fun p clean => finished.unwritten p (unwritten p clean), fun path i outside =>
        finished.bytes path i fun p hp => outside p (dirtyFor_of_mem_writes hp)⟩
      count := finished.count
      commits := fun commit succeeded => by
        subst commit
        have all : ∀ p, e.DirtyFor t p → p ∈ e.writes t true := fun p mine =>
          writes_of_blame_eq_ok succeeded ▸ mem_dirtied.2 mine
        exact ⟨finished.order all, fun p frame there dirtier =>
          finished.stored p (all p ⟨frame, there, dirtier⟩) frame there⟩
      aborts := fun abort => by
        subst abort
        exact ⟨finished.volume rfl, fun succeeded p mine => finished.reread mine List.not_mem_nil
          (blame_eq_ok_iff.1 succeeded p (mem_dirtied.2 mine))⟩
      fails := fun _ p frame there dirtier => finished.page there dirtier }

end Engine

/-! ## Two tables, one of them forgotten -/

/-- **A second file of numbers.** -/
def HeapFile.others : HeapFile :=
  { HeapFile.numbers with table := ⟨2⟩, path := ["others"] }

/-- The tables of both files. -/
def Catalog.pair : Catalog :=
  ⟨[⟨"numbers", .numbers⟩, ⟨"others", .others⟩], ⟨[("numbers", ⟨1⟩), ("others", ⟨2⟩)]⟩⟩

theorem Catalog.apart_pair : Catalog.pair.Apart :=
  apart_of_nodup (by decide)

namespace Engine

/-- A new pool over two empty files, with room for two pages. -/
def pair : Engine :=
  ⟨⟨[], [(["numbers"], .empty), (["others"], .empty)]⟩, .pair, .empty, .empty, 0, 2⟩

theorem reachable_pair : pair.Reachable .pair :=
  have registered : ∀ entry ∈ Catalog.pair.entries,
      Catalog.pair.file entry.table = .ok entry.file := by decide
  have started : start ⟨9, 2, 1⟩ pair.volume pair.catalog = .ok pair := rfl
  .start registered started

/-- **A pool in which a transaction has put a row into either table**, and the
second table is not registered any more. -/
def orphaned : Engine :=
  [Deed.insert ⟨1⟩ .numbers (.number 8 none) true (.scanning 0 0),
    .insert ⟨1⟩ .others (.number 9 none) true (.scanning 0 0),
    .forget, .register .numbers "numbers"].foldl perform pair

theorem reachable_orphaned : orphaned.Reachable .pair := by
  have first := reachable_pair.perform
    (.insert ⟨1⟩ .numbers (.number 8 none) true (.scanning 0 0)) trivial
  have second := first.perform (.insert ⟨1⟩ .others (.number 9 none) true (.scanning 0 0)) trivial
  exact (second.perform .forget trivial).perform (.register .numbers "numbers") rfl

/-- A commit that fails: the page of the first table is written, and the page of
the second is gone. -/
theorem completes_orphaned :
    orphaned.dirtied ⟨1⟩ = [⟨⟨1⟩, 0⟩, ⟨⟨2⟩, 0⟩]
      ∧ ((commit ⟨1⟩).on orphaned).1 = .error (.fault (.tableNotFound ⟨2⟩))
      ∧ Completed .pair ⟨1⟩ true orphaned ((commit ⟨1⟩).on orphaned).1
        ((commit ⟨1⟩).on orphaned).2 :=
  ⟨by decide +kernel, by decide +kernel,
    reachable_orphaned.completes Catalog.apart_pair ⟨1⟩ true⟩

end Engine

end Tablespace
