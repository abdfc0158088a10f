import Tablespace.Pool.Completion
import Tablespace.Proofs.Engine.Anchored
import Tablespace.Proofs.Heap.Insertion

/-!
# What a pool does keeps its pages anchored

Every turn of the engine leaves it anchored at home (`Engine.Anchored`),
whether it answers or is cut short, and a page that it gives is a state of a
page of a file (`Engine.Anchors`). There is one lemma for each turn, by the
lemmas of the turns that it is made of.
-/

namespace Tablespace

namespace Engine

variable {α : Type} {e : Engine} {home : Catalog} {t : TxnId} {p : PageId} {d q : Page}

/-- **A turn that leaves an engine anchored** and gives what is wanted. -/
def Anchors (home : Catalog) (gives : α → Engine → Prop) : Except Halt α × Engine → Prop :=
  Turn.Yields (fun a e => e.Anchored home ∧ gives a e) (·.Anchored home)

/-- The engine that such a turn leaves. -/
theorem Anchors.anchored {gives : α → Engine → Prop} {r : Except Halt α × Engine}
    (anchors : Anchors home gives r) : r.2.Anchored home :=
  Turn.Yields.state anchors fun _ _ => And.left

namespace Anchored

variable (anchored : e.Anchored home)

include anchored

/-! ## Fetching -/

theorem keep (fits : home.Fits e.volume p d) : (e.keep d).Anchored home :=
  anchored.insert (fun _ _ there => there) (fits.id.symm ▸ fits)

/-- The page that makes room is gone. -/
theorem makeRoom (p : PageId) : ((makeRoom p).on e).2.Anchored home := by
  cases made : (Engine.makeRoom p).on e with | mk outcome roomy =>
  obtain ⟨cache, rfl, pages, -⟩ := peek?_makeRoom made
  refine anchored.recache fun q frame there => anchored.cached q frame ?_
  rcases pages q with same | ⟨gone, -⟩
  · exact same.symm.trans there
  · rw [gone] at there
    cases there

theorem load (p : PageId) :
    Anchors home (fun q e' => home.Fits e'.volume p q) ((load p).on e) := by
  cases there : e.frame? p with
  | some frame =>
    have fits := anchored.cached p frame there
    rw [on_load_of_frame there]
    exact ⟨anchored.insert (fun _ _ there => there) fits, fits⟩
  | none =>
    have roomy' := anchored.makeRoom p
    rw [on_load_of_absent there]
    cases made : (Engine.makeRoom p).on e with | mk outcome roomy =>
    rw [made] at roomy'
    cases outcome with
    | error halt => exact roomy'
    | ok _ =>
      dsimp only
      cases read : roomy.readPage p with
      | error cause => exact roomy'
      | ok d =>
        have fits := roomy'.fits_of_readPage read
        exact ⟨roomy'.keep fits, fits⟩

theorem lock (t : TxnId) (p : PageId) (mode : LockMode) :
    Anchors home (fun _ _ => True) ((onLocks (LockTable.acquire t p mode)).on e) := by
  rw [on_lock]
  have sound : (e.locks.request t p mode).2.Sound := anchored.locks.request
  have relocked := anchored.relock sound
  cases (e.locks.request t p mode).1 with
  | granted => exact ⟨relocked, trivial⟩
  | blocked => exact relocked
  | deadlock holder => exact relocked

/-- **A page that is fetched** is one of a file. -/
theorem fetch (t : TxnId) (p : PageId) (mode : LockMode) :
    Anchors home (fun q e' => home.Fits e'.volume p q) ((fetch t p mode).on e) :=
  (anchored.lock t p mode).bind fun _ _ locked => locked.1.load p

/-! ## Changing rows -/

/-- A page may be replaced by a state of the same page. -/
theorem alter (fits : home.Fits e.volume q.id q) : (e.alter q).Anchored home :=
  anchored.modify fun _ _ => fits

theorem giveBack (t : TxnId) (p : PageId) (before : Option LockMode) :
    (e.giveBack t p before).Anchored home := by
  unfold Engine.giveBack
  split
  · exact anchored.relock anchored.locks.release
  · exact anchored.relock anchored.locks.downgrade
  · exact anchored

/-- **A row that is tried on a page** is in a page of a file, or nowhere. -/
theorem tryInsert (t : TxnId) (row : Tuple) (p : PageId) :
    Anchors home (fun stored e' => ∀ r ∈ stored, home.Fits e'.volume r.2.id r.2)
      ((tryInsert t row p).on e) := by
  have fetched' := anchored.fetch t p .exclusive
  rw [on_tryInsert]
  cases fetched : (Engine.fetch t p .exclusive).on e with | mk outcome e₁ =>
  rw [fetched] at fetched'
  cases outcome with
  | error halt => exact fetched'
  | ok d =>
    obtain ⟨anchored', fits⟩ := fetched'
    dsimp only
    split
    · have same := d.sameFrame_insert row
      have fits' : home.Fits e₁.volume (d.insert row).2.id (d.insert row).2 :=
        (same.id.trans fits.id).symm ▸ fits.alike same.toAlike
      have altered := anchored'.alter fits'
      cases (d.insert row).1 with
      | error cause => exact altered
      | ok stored => exact ⟨altered, fun r hr => Option.mem_some_iff.1 hr ▸ fits'⟩
    · exact ⟨anchored'.giveBack t p _, fun r hr => by cases hr⟩

theorem deleteAt (t : TxnId) (row : Tuple) (record : RecordId) :
    Anchors home (fun q e' => home.Fits e'.volume q.id q) ((deleteAt t row record).on e) := by
  have fetched' := anchored.fetch t record.page .exclusive
  rw [on_deleteAt]
  cases fetched : (Engine.fetch t record.page .exclusive).on e with | mk outcome e₁ =>
  rw [fetched] at fetched'
  cases outcome with
  | error halt => exact fetched'
  | ok d =>
    obtain ⟨anchored', fits⟩ := fetched'
    dsimp only
    cases deleted : d.delete row with
    | error cause => exact anchored'.alter (fits.id.symm ▸ fits)
    | ok q =>
      obtain ⟨-, -, -, -, -, same, -⟩ := Page.delete_ok deleted
      have fits' : home.Fits e₁.volume q.id q :=
        (same.id.trans fits.id).symm ▸ fits.alike same.toAlike
      exact ⟨anchored'.alter fits', fits'⟩

/-- **A page is marked** and put into the cache, wherever it was. -/
theorem install (t : TxnId) (fits : home.Fits e.volume q.id q) :
    Anchors home (fun _ _ => True) ((install t q).on e) := by
  have roomy' := anchored.makeRoom q.id
  rw [Engine.install, Turn.on_bind]
  cases made : (Engine.makeRoom q.id).on e with | mk outcome roomy =>
  obtain ⟨cache, rfl, -, -⟩ := peek?_makeRoom made
  rw [made] at roomy'
  cases outcome with
  | error halt => exact roomy'
  | ok _ =>
    have marked := fits.alike (q.alike_markDirty (some t))
    refine ⟨?_, trivial⟩
    show (place _ _).Anchored home
    unfold place
    split
    · exact roomy'.insert (fun _ _ there => there) marked
    · exact roomy'.keep marked

/-! ## Writing pages back -/

/-- **A page is written back** to the file that it has at home, or stays as it
is. -/
theorem writeBack (p : PageId) : Anchors home (fun _ _ => True) ((writeBack p).on e) := by
  rw [Engine.writeBack, Turn.on_bind_ok (Turn.on_get e)]
  cases there : e.cache.peek? p with
  | none => exact ⟨anchored, trivial⟩
  | some frame =>
    dsimp only
    cases file : e.catalog.file p.table with
    | error cause =>
      rw [Turn.on_bind_error (Turn.on_ofExcept_error _ _)]
      exact anchored
    | ok f =>
      rw [Turn.on_bind_ok (Turn.on_ofExcept_ok _ _)]
      cases written : f.writePage e.volume frame.page with
      | error halt => exact anchored
      | ok volume =>
        have grown := anchored.grow (HeapFile.grows_writePage written)
        exact ⟨grown.modify fun g here => (grown.cached p g here).alike (g.page.alike_markDirty _),
          trivial⟩

theorem forM_writeBack (pages : List PageId) :
    Anchors home (fun _ _ => True) ((pages.forM Engine.writeBack).on e) := by
  induction pages generalizing e with
  | nil => exact ⟨anchored, trivial⟩
  | cons p pages ih => exact (anchored.writeBack p).bind fun _ _ written => ih written.1

theorem flushPages (t : TxnId) : Anchors home (fun _ _ => True) ((flushPages t).on e) :=
  anchored.forM_writeBack _

theorem flushAll : Anchors home (fun _ _ => True) (flushAll.on e) :=
  anchored.forM_writeBack _

theorem flushPage (p : PageId) : Anchors home (fun _ _ => True) ((flushPage p).on e) := by
  rw [Engine.flushPage, Turn.on_bind_ok (Turn.on_get e)]
  cases e.cache.peek? p with
  | none => exact ⟨anchored, trivial⟩
  | some frame =>
    dsimp only
    split
    · exact (anchored.writeBack p).bind fun _ _ written => written
    · exact ⟨anchored, trivial⟩

end Anchored

end Engine

namespace HeapFile

variable {e : Engine} {home : Catalog}

/-- **What an insertion leaves**: an engine that is anchored, and a row in a page
of a file. -/
def Anchors (home : Catalog) :
    Except Halt (Tuple × Page) × InsertionStage × Engine → Prop :=
  Turn.Yields (fun r s => s.2.Anchored home ∧ home.Fits s.2.volume r.2.id r.2)
    (·.2.Anchored home)

/-- **An insertion leaves an engine anchored**, however far it comes: it appends
pages, and tries one after the other. -/
theorem anchors_insertFrom (f : HeapFile) (t : TxnId) (row : Tuple) (steps : Nat)
    (stage : InsertionStage) (anchored : e.Anchored home) :
    Anchors home ((f.insertFrom t row steps).on (stage, e)) := by
  refine insertFrom_induction (I := fun _ s => s.2.Anchored home) (fun s anchored => anchored)
    (fun _ stage e anchored => ?_) anchored
  refine leads_insertStep (fun page full _ => ?_) (fun _ _ _ _ => anchored.grow grows_writeAt)
    fun _ _ => anchored
  have tried := anchored.tryInsert t row ⟨f.table, page⟩
  generalize (Engine.tryInsert t row ⟨f.table, page⟩).on e = r at tried ⊢
  obtain ⟨outcome, e'⟩ := r
  cases outcome with
  | error halt => exact tried
  | ok stored =>
    cases stored with
    | none => exact tried.1
    | some stored => exact ⟨tried.1, tried.2 stored rfl⟩

end HeapFile

end Tablespace
