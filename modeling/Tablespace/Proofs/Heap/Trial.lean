import Tablespace.Proofs.Pool.Tended

/-!
# Insertions and deletions, whatever becomes of them

An insertion that is cut short has been quiet (`HeapFile.inserts_insertFrom`): it
has looked through pages and given back their locks, it may have appended pages,
and it has taken at most the lock of the page that it was cut short at
(`Engine.Takes`). The same goes for a deletion (`Engine.deletes_deleteAt`). One
that answers has been quiet up to the page that it has put the row into, or taken
it out of. That page is locked exclusive, and is not marked yet
(`Engine.Reworked`); the mark is a step of its own (`Engine.Reworked.install`).

Pages are passed over for a reason: the page that is seen has no free slot. And
there is a reason for each way to be cut short (`Engine.Tries`).

None of this asks for coherence, so that it holds whatever was done to the engine
before.
-/

namespace Tablespace

/-! ## Locks that are given back -/

namespace LockModes

variable {m : LockModes} {t : TxnId} {p : PageId} {mode mode' : Option LockMode}

theorem set_set : (m.set t p mode).set t p mode' = m.set t p mode' := by
  funext u q
  unfold set
  split <;> rfl

/-- A mode that is set to what it was before. -/
theorem set_of_eq (same : m t p = mode) : m.set t p mode = m := by
  funext u q
  unfold set
  split
  · rename_i here
    rw [here.1, here.2, same]
  · rfl

end LockModes

namespace HeapFile

variable {f g : HeapFile} {known : Prop}

/-- **How files grow by an insertion**: it is its own file that does, and it does so
without a gap if the insertion knows its pages. -/
def Appends (f : HeapFile) (known : Prop) (g : HeapFile) (v : Volume) : Prop :=
  g = f ∧ (known → (f.pageCount v).toNat ≤ f.pages v)

theorem bears_appends (spares : f.Spares g) (own : g = f → known) : f.Bears (g.Appends known) := by
  rintro _ v ⟨rfl, next⟩
  refine ⟨spares, fun same => ?_⟩
  subst same
  exact next (own rfl)

end HeapFile

namespace Engine

variable {e e₁ e₂ e' : Engine} {grow : HeapFile → Volume → Prop} {t : TxnId} {p : PageId}
  {frame : Frame} {q : Page} {row : Tuple} {halt : Halt}

/-- **A lock that is given back** is what it was before the page was locked. -/
theorem giveBack_spec (sound : e.locks.Sound) {modes : LockModes}
    (taken : e.locks.mode? = modes.set t p (some .exclusive)) :
    ∃ locks : LockTable, locks.Sound ∧ locks.mode? = modes
      ∧ e.giveBack t p (modes t p) = { e with locks := locks } := by
  cases before : modes t p with
  | none =>
    refine ⟨e.locks.release t p, sound.release, ?_, rfl⟩
    rw [LockTable.mode?_release, taken, LockModes.set_set, LockModes.set_of_eq before]
  | some mode =>
    cases mode with
    | exclusive => exact ⟨e.locks, sound, taken.trans (LockModes.set_of_eq before), rfl⟩
    | shared =>
      have held : e.locks.mode? t p = some .exclusive := by
        rw [taken, LockModes.set, if_pos ⟨rfl, rfl⟩]
      refine ⟨e.locks.downgrade t p, sound.downgrade, ?_, rfl⟩
      rw [LockTable.mode?_downgrade, if_pos held, taken, LockModes.set_set,
        LockModes.set_of_eq before]

/-- **At most the lock of a page is taken**, and it is exclusive then. -/
def Takes (t : TxnId) (p : PageId) (e e' : Engine) : Prop :=
  e'.locks.mode? = e.locks.mode?
    ∨ e'.locks.mode? = LockModes.set e.locks.mode? t p (some .exclusive)

/-- A fetch for a change that is cut short takes at most the lock of the page. -/
theorem takes_fetch (fetched : (fetch t p .exclusive).on e = (.error halt, e')) :
    Takes t p e e' := by
  have fetches := (fetches_fetch t p .exclusive e).1
  rw [fetched] at fetches
  rcases fetches with ⟨same, -⟩ | ⟨modes, -⟩
  · exact .inl same
  · rw [LockMode.join_exclusive] at modes
    exact .inr modes

/-! ## Changing a page -/

/-- **A page that was locked and changed**, and is not marked yet: it was fetched as
the page of the frame. -/
structure Reworked (grow : HeapFile → Volume → Prop) (t : TxnId) (p : PageId) (e e₁ : Engine)
    (frame : Frame) (q : Page) (e' : Engine) : Prop where
  quietly : Quietly grow e e₁
  modes : e₁.locks.mode? = LockModes.set e.locks.mode? t p (some .exclusive)
  there : e₁.frame? p = some frame
  alike : frame.page.Alike q
  after : e' = e₁.alter q

/-- What is quiet before a page is changed belongs to it, if it has left the locks
alone. -/
theorem Reworked.before (reworked : Reworked grow t p e e₁ frame q e')
    (quietly : Quietly grow e₂ e) (modes : e.locks.mode? = e₂.locks.mode?) :
    Reworked grow t p e₂ e₁ frame q e' :=
  ⟨quietly.trans reworked.quietly, modes ▸ reworked.modes, reworked.there, reworked.alike,
    reworked.after⟩

/-- **The mark** is a step, and is always possible. -/
theorem Reworked.install (reworked : Reworked grow t p e e₁ frame q e') (orderly : e.Orderly) :
    ∃ cache : Cache Frame, (install t q).on e' = (.ok (), { e₁ with cache := cache })
      ∧ Steps grow e { e₁ with cache := cache }
      ∧ cache.peek? p = some ⟨q.markDirty (some t), frame.load⟩
      ∧ ∀ r, r ≠ p → cache.peek? r = e₁.frame? r := by
  obtain ⟨quietly, -, there, alike, rfl⟩ := reworked
  have id : q.id = p := alike.id.trans ((Quietly.orderly quietly orderly).named p frame there)
  subst id
  have here : ((e₁.alter q).cache.insert q.id ⟨q.markDirty (some t), frame.load⟩).peek? q.id
      = some ⟨q.markDirty (some t), frame.load⟩ := Cache.peek?_insert.trans (if_pos rfl)
  have others (r : PageId) (other : r ≠ q.id) :
      ((e₁.alter q).cache.insert q.id ⟨q.markDirty (some t), frame.load⟩).peek? r
        = e₁.frame? r := by
    rw [Cache.peek?_insert, if_neg other]
    exact (frame?_alter there r).trans (if_neg other)
  refine ⟨_, on_install_alter t there, ?_, here, others⟩
  have dirty : (q.markDirty (some t)).dirtier ≠ none := by simp [Page.markDirty]
  exact (Quietly.steps quietly).tail
    (.store _ frame _ _ there here others (alike.trans (q.alike_markDirty _)) dirty)

/-! ## Trying a page -/

/-- **What trying a page comes to**: a row in the page that was seen, which had a free
slot; or nothing, if it has none; or the lock is not to be had, or the page is not,
or the row does not suit it. -/
def Tries (grow : HeapFile → Volume → Prop) (t : TxnId) (row : Tuple) (p : PageId) (e : Engine) :
    Except Halt (Option (Tuple × Page)) × Engine → Prop
  | (.ok (some (stored, q)), e') => ∃ e₁ frame, Reworked grow t p e e₁ frame q e'
      ∧ e₁.volume = e.volume ∧ e.pageSeen p = .ok frame.page
      ∧ frame.page.insert row = (.ok stored, q)
  | (.ok none, e') => Quietly grow e e' ∧ e'.volume = e.volume
      ∧ e'.locks.mode? = e.locks.mode?
      ∧ (∃ q, e.pageSeen p = .ok q ∧ q.hasFreeSlot = false) ∧ (e.HasRoom → e'.HasRoom)
  | (.error halt, e') => Quietly grow e e' ∧ e'.volume = e.volume ∧ Takes t p e e'
      ∧ (halt = .wait ∨ ∃ cause, halt = .fault cause ∧ ((∃ holder, cause = .deadlock t holder)
        ∨ e.frame? p = none ∧ (¬e.HasRoom ∨ e.readPage p = .error cause)
        ∨ ∃ q, e.pageSeen p = .ok q ∧ q.hasFreeSlot = true ∧ (q.insert row).1 = .error cause))

variable (grow t row p) in
/-- **What trying a page does.** -/
theorem tries_tryInsert (orderly : e.Orderly) :
    Tries grow t row p e ((tryInsert t row p).on e) := by
  have quietly := quietly_fetch grow orderly t p .exclusive
  obtain ⟨fetches, volume⟩ := fetches_fetch t p .exclusive e
  rw [on_tryInsert]
  cases fetched : (fetch t p .exclusive).on e with | mk outcome e₁ =>
  rw [fetched] at quietly fetches volume
  cases outcome with
  | error halt =>
    refine ⟨quietly, volume, takes_fetch fetched, ?_⟩
    rcases fetches with ⟨-, rfl | ⟨holder, rfl⟩⟩ | ⟨-, absent, cause, rfl, reason⟩
    · exact .inl rfl
    · exact .inr ⟨_, rfl, .inl ⟨holder, rfl⟩⟩
    · exact .inr ⟨cause, rfl, .inr (.inl ⟨absent, reason⟩)⟩
  | ok d =>
    obtain ⟨modes, seen, ⟨frame, there, rfl⟩, room⟩ := fetches
    rw [LockMode.join_exclusive] at modes
    have orderly' := Quietly.orderly quietly orderly
    dsimp only
    split
    · rename_i free
      cases inserted : frame.page.insert row with | mk result q =>
      have same := frame.page.sameFrame_insert row
      rw [inserted] at same
      cases result with
      | ok stored =>
        exact ⟨e₁, frame, ⟨quietly, modes, there, same.toAlike, rfl⟩, volume, seen, inserted⟩
      | error cause =>
        -- bytes may have been written, but no row has been changed
        have rows := (Page.insert_error inserted).2
        have named : e₁.frame? q.id = some frame := by
          rw [same.id, orderly'.named p frame there]
          exact there
        exact ⟨quietly.tail (.scribble q frame named ⟨same, rows⟩), volume, .inr modes,
          .inr ⟨cause, rfl, .inr (.inr ⟨_, seen, free, by rw [inserted]⟩)⟩⟩
    · rename_i full
      obtain ⟨locks, sound, before, is⟩ := giveBack_spec orderly'.locks modes
      rw [is]
      have none : frame.page.hasFreeSlot = false := by simpa using full
      exact ⟨quietly.tail (.relock locks sound), volume, before, ⟨_, seen, none⟩, room⟩

/-! ## Deletion -/

/-- **What a deletion comes to**, before the page is marked. -/
def Deletes (grow : HeapFile → Volume → Prop) (t : TxnId) (row : Tuple) (p : PageId) (e : Engine) :
    Except Halt Page × Engine → Prop
  | (.ok q, e') => ∃ e₁ frame, Reworked grow t p e e₁ frame q e' ∧ e₁.volume = e.volume
      ∧ frame.page.delete row = .ok q
  | (.error _, e') => Quietly grow e e' ∧ e'.volume = e.volume ∧ Takes t p e e'

variable (grow t row) in
/-- **What a deletion does.** -/
theorem deletes_deleteAt (orderly : e.Orderly) (record : RecordId) :
    Deletes grow t row record.page e ((deleteAt t row record).on e) := by
  have quietly := quietly_fetch grow orderly t record.page .exclusive
  obtain ⟨fetches, volume⟩ := fetches_fetch t record.page .exclusive e
  rw [on_deleteAt]
  cases fetched : (fetch t record.page .exclusive).on e with | mk outcome e₁ =>
  rw [fetched] at quietly fetches volume
  cases outcome with
  | error halt => exact ⟨quietly, volume, takes_fetch fetched⟩
  | ok d =>
    obtain ⟨modes, -, ⟨frame, there, rfl⟩, -⟩ := fetches
    rw [LockMode.join_exclusive] at modes
    dsimp only
    cases deleted : frame.page.delete row with
    | ok q =>
      obtain ⟨-, -, -, -, -, same, -⟩ := Page.delete_ok deleted
      exact ⟨e₁, frame, ⟨quietly, modes, there, same.toAlike, rfl⟩, volume, deleted⟩
    | error cause =>
      have named : e₁.frame? frame.page.id = some frame := by
        rw [(Quietly.orderly quietly orderly).named _ frame there]
        exact there
      exact ⟨quietly.tail (.scribble _ frame named ⟨.refl _, fun _ => rfl⟩), volume, .inr modes⟩

end Engine

/-! ## Page after page -/

namespace HeapFile

open Engine (Quietly Reworked Takes Tries)

variable {f : HeapFile} {known : Prop} {t : TxnId} {row : Tuple} {e e' : Engine}
  {stage : InsertionStage}

/-- **What an insertion comes to**, before the page is marked. One that is cut short
goes on with what it knows. -/
def Inserts (f : HeapFile) (known : Prop) (t : TxnId) (row : Tuple) (e : Engine) :
    Except Halt (Tuple × Page) × InsertionStage × Engine → Prop
  | (.ok (stored, q), _, e') => ∃ n e₁ frame,
      Reworked (f.Appends known) t ⟨f.table, n⟩ e e₁ frame q e'
        ∧ frame.page.insert row = (.ok stored, q)
  | (.error _, stage, e') => Quietly (f.Appends known) e e'
      ∧ (∃ n, Takes t ⟨f.table, n⟩ e e') ∧ (known → stage.Known f e'.volume)

/-- **Where an insertion has come to** that has been quiet so far: the locks are as they
were. -/
structure Searching (f : HeapFile) (known : Prop) (e : Engine) (s : InsertionStage × Engine) :
    Prop where
  quietly : Quietly (f.Appends known) e s.2
  modes : s.2.locks.mode? = e.locks.mode?
  knows : known → s.1.Known f s.2.volume ∧ s.2.Tends f

variable (t row) in
/-- **What a step of an insertion does**: it tries a page, quietly passes over one that is
full, or appends one. -/
theorem searching_insertStep (orderly : e'.Orderly) (searching : f.Searching known e (stage, e')) :
    Leads (f.Searching known e) (f.Inserts known t row e)
      ((f.insertStep t row).on (stage, e')) := by
  obtain ⟨quietly, modes, knows⟩ := searching
  -- what has been quiet so far stays so, and the pages are kept with the file
  have onwards {e'' : Engine} {stage' : InsertionStage}
      (more : Quietly (f.Appends known) e' e'') (same : e''.locks.mode? = e'.locks.mode?)
      (known' : known → stage'.Known f e''.volume) : f.Searching known e (stage', e'') :=
    ⟨quietly.trans more, same.trans modes, fun h => ⟨known' h,
      (knows h).2.steps (bears_appends (.refl f) fun _ => h) (Quietly.steps more)⟩⟩
  refine leads_insertStep (fun page full next => ?_) (fun next limit at_ last => ?_)
    fun limit at_ => ?_
  · have tries := Engine.tries_tryInsert (f.Appends known) t ⟨f.table, page⟩ row orderly
    generalize (Engine.tryInsert t row ⟨f.table, page⟩).on e' = r at tries ⊢
    obtain ⟨outcome, e''⟩ := r
    cases outcome with
    | error halt =>
      obtain ⟨more, volume, taken, -⟩ := tries
      rw [Takes, modes] at taken
      exact ⟨quietly.trans more, ⟨page, taken⟩, fun h => volume.symm ▸ (knows h).1⟩
    | ok stored =>
      cases stored with
      | none =>
        obtain ⟨more, volume, same, ⟨q, seen, -⟩, -⟩ := tries
        refine onwards more same fun h => ?_
        -- a page that was seen is one of the file
        have inside := ((knows h).2.fits_of_pageSeen rfl seen).place.2.1
        exact volume.symm ▸ (knows h).1.of_full next inside
      | some stored =>
        obtain ⟨e₁, frame, reworked, -, -, inserted⟩ := tries
        exact ⟨page, e₁, frame, reworked.before quietly modes, inserted⟩
  · subst at_
    exact onwards (.single (.append f ⟨rfl, fun h => (knows h).1.leaves_no_gap last⟩)) rfl
      fun h => (knows h).1.appended last
  · subst at_
    exact onwards .refl rfl fun h => (knows h).1.counted

variable (t row) in
/-- **What an insertion does**, from wherever it has come to. If it knows the pages of
its file, and the engine keeps them with it, then it leaves no gap. -/
theorem inserts_insertFrom (steps : Nat) (orderly : e.Orderly)
    (knows : known → stage.Known f e.volume ∧ e.Tends f) :
    f.Inserts known t row e ((f.insertFrom t row steps).on (stage, e)) :=
  insertFrom_induction (I := fun _ => f.Searching known e)
    (fun _ searching =>
      ⟨searching.quietly, ⟨0, .inl searching.modes⟩, fun h => (searching.knows h).1⟩)
    (fun _ _ _ searching =>
      searching_insertStep t row (Quietly.orderly searching.quietly orderly) searching)
    ⟨.refl, rfl, knows⟩

end HeapFile

end Tablespace
