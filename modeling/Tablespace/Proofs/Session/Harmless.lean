import Tablespace.Proofs.Session.Pooled

/-!
# Insertions and deletions that fail

An insertion or a deletion can fail at many points: before anything is locked, at a
lock that another transaction holds, for want of room in the cache, at a page that
cannot be read, after it has looked through pages and appended one, or in the middle of
a row that does not fit. Whatever it fails at, it has changed no row
(`Engine.Served.unharmed`).

The states are all those that a pool comes to over tables that stay registered
(`Engine.Served`), also those in which locks were given up early or pages were written
and thrown out at any time. A call that was blocked and is taken up again counts like
one that is made for the first time, and a turn that ends with waiting counts as a
failure, so that nothing is done to the rows by any of the turns of a call that fails in
the end.

What is said of rows is said of tables that have their file to themselves, which is for
the catalog to see to (`Catalog.Alone`), and of pages that are not overrun. An overrun
page is erased by the insertion that appends the next page, whether or not that
insertion goes on to fail.
-/

namespace Tablespace

/-- **A file that no other table has**: no rival of it is registered. -/
def Catalog.Alone (c : Catalog) (f : HeapFile) : Prop :=
  ∀ entry ∈ c.entries, f.Spares entry.file

/-- **A deed that works on tables of the catalog.** An insertion knows the pages of its
file if no other table has them. -/
def Deed.Serves (catalog : Catalog) (e : Engine) : Deed → Prop
  | insert _ f _ _ stage =>
    catalog.file f.table = .ok f ∧ (catalog.Alone f → stage.Known f e.volume)
  | _ => True

namespace Engine

variable {e e' : Engine} {catalog : Catalog} {t u : TxnId} {f : HeapFile} {p : PageId} {halt : Halt}
  {stage : InsertionStage} {asked : Except Fault Call}

/-- **The states that a pool can come to over tables that stay registered.** -/
inductive Served (catalog : Catalog) : Engine → Prop where
  /-- The pool is new. -/
  | start {config : Config} {volume : Volume} {e : Engine}
      (h : Engine.start config volume catalog = .ok e) : Served catalog e
  /-- Something is done through it. -/
  | perform {e : Engine} (before : Served catalog e) (deed : Deed) (pooled : deed.Pooled)
      (still : ¬deed.Registers) (serves : deed.Serves catalog e) : Served catalog (e.perform deed)

/-- **A failure that has done no harm.** -/
structure Unharmed (t : TxnId) (e e' : Engine) : Prop where
  catalog : e'.catalog = e.catalog
  /-- A page is dirty for whom it was dirty before. -/
  dirty : ∀ u p, e'.DirtyFor u p ↔ e.DirtyFor u p
  /-- At most one lock is taken, and all others are as they were. -/
  locks : ∃ p, Takes t p e e'
  /-- No lock becomes weaker. -/
  held : ∀ u p mode, e.locks.mode? u p = some mode →
    e'.locks.mode? u p = some mode ∨ e'.locks.mode? u p = some .exclusive
  /-- The rows of a table are as they were, seen and stored, and its pages are in the file
  as they were, or new there and empty. -/
  rows : ∀ f p, e.catalog.file p.table = .ok f → e.catalog.Alone f →
    ¬f.Overrun e'.volume p.number → e.Keeps e' p
      ∧ ∀ slot, e'.stored ⟨p, slot⟩ = e.stored ⟨p, slot⟩ ∧ e'.seen ⟨p, slot⟩ = e.seen ⟨p, slot⟩
  /-- A page that is overrun is erased by the next append to its file. -/
  erased : ∀ f p, e.catalog.file p.table = .ok f → f.Overrun e'.volume p.number → f.Erases e' p

/-- **What the pool is asked for**: an insertion or a deletion, which may be refused at
once, or one that was blocked. -/
inductive Asks (catalog : Catalog) (t : TxnId) (e : Engine) : Except Fault Call → Prop
  | insertion (table : TableId) (row : Tuple) : Asks catalog t e (Session.insertion e t table row)
  | deletion (row : Tuple) : Asks catalog t e (Session.deletion e t row)
  | inserting (f : HeapFile) (row : Tuple) (stage : InsertionStage)
      (serves : (Deed.insert t f row true stage).Serves catalog e) :
      Asks catalog t e (.ok (.insert t f row true stage))
  | deleting (row : Tuple) (record : RecordId) : Asks catalog t e (.ok (.delete t row record true))

/-- **One turn of what is asked for**: the outcome, and the engine afterwards. What is
refused at once does nothing. -/
def attempt (e : Engine) : Except Fault Call → Except Halt Answer × Engine
  | .error cause => (.error (.fault cause), e)
  | .ok c => ((c.turn (.ofEngine e)).1, (c.turn (.ofEngine e)).2.2.engine)

/-! ## The states of the pool -/

/-- **The engine is in order, and tends the files** that their tables have to
themselves. -/
theorem Served.tended (served : e.Served catalog) :
    e.catalog = catalog ∧ e.Orderly ∧ ∀ f, catalog.Alone f → e.Tends f := by
  induction served with
  | start h =>
    refine ⟨by rw [eq_of_start h], orderly_of_start h, fun f alone => ?_⟩
    obtain rfl := eq_of_start h
    exact tends_of_absent alone fun _ _ => rfl
  | @perform e before deed pooled still serves ih =>
    obtain ⟨same, orderly, tends⟩ := ih
    refine ⟨?_, orderly.perform pooled, fun f alone => ?_⟩
    · rw [Steps.catalog (steps_perform orderly pooled still), same]
    · refine (tends f alone).perform orderly pooled ?_
      cases deed with
      | insert t g row marked stage =>
        obtain ⟨file, known⟩ := serves
        exact ⟨(tends f alone).spares (same.symm ▸ file), fun eq => eq ▸ known (eq.symm ▸ alone)⟩
      | register | forget => exact absurd trivial still
      | _ => trivial

/-- **A blocked insertion** knows the pages of its file whatever is done meanwhile. -/
theorem Served.known (served : e.Served catalog) (alone : catalog.Alone f) {deed : Deed}
    (pooled : deed.Pooled) (still : ¬deed.Registers) (serves : deed.Serves catalog e)
    (known : stage.Known f e.volume) : stage.Known f (e.perform deed).volume := by
  obtain ⟨same, orderly, tends⟩ := served.tended
  refine known.mono ((tends f alone).grown ?_ (steps_perform orderly pooled still))
  cases deed with
  | insert t g row marked stage =>
    obtain ⟨file, known⟩ := serves
    exact HeapFile.bears_appends ((tends f alone).spares (same.symm ▸ file)) fun eq =>
      ⟨known (eq.symm ▸ alone), eq ▸ tends f alone⟩
  | _ => exact fun _ _ grows => grows.elim

/-! ## What is asked for -/

/-- What is not refused is an insertion into a table of the catalog, or a deletion. -/
theorem Asks.call (asks : Asks catalog t e asked) (same : e.catalog = catalog) {c : Call}
    (made : asked = .ok c) :
    (∃ f row stage, c = .insert t f row true stage
        ∧ (Deed.insert t f row true stage).Serves catalog e)
      ∨ ∃ row record, c = .delete t row record true := by
  cases asks with
  | insertion table row =>
    unfold Session.insertion at made
    cases file : e.catalog.file table with
    | error cause => rw [file] at made; cases made
    | ok f =>
      rw [file] at made
      cases layout : f.checkLayout row with
      | error cause => simp only [bind, Except.bind, layout] at made; cases made
      | ok _ =>
        simp only [bind, Except.bind, layout] at made
        cases made
        have table' : f.table = table := Catalog.table_of_file file
        exact .inl ⟨f, row, _, rfl, table'.symm ▸ same ▸ file, fun _ =>
          InsertionStage.known_firstStage e⟩
  | deletion row =>
    unfold Session.deletion at made
    cases place : row.place with
    | error cause => rw [place] at made; cases made
    | ok record =>
      simp only [place, bind, Except.bind] at made
      cases file : e.catalog.file record.page.table with
      | error cause => rw [file] at made; cases made
      | ok f =>
        rw [file] at made
        cases check : f.checkTable record.page with
        | error cause => simp only [check] at made; cases made
        | ok _ =>
          simp only [check] at made
          cases made
          exact .inr ⟨row, record, rfl⟩
  | inserting f row stage serves =>
    cases made
    exact .inl ⟨f, row, stage, rfl, serves⟩
  | deleting row record =>
    cases made
    exact .inr ⟨row, record, rfl⟩

/-- What is quiet and takes at most one lock does no harm. -/
theorem Served.unharmed_of_quietly (served : e.Served catalog) {grow : HeapFile → Volume → Prop}
    (bears : ∀ f, catalog.Alone f → f.Bears grow) (quietly : Quietly grow e e')
    (taken : ∃ p, Takes t p e e') : Unharmed t e e' := by
  obtain ⟨rfl, orderly, tends⟩ := served.tended
  have catalog := Quietly.catalog quietly
  exact
    { catalog := catalog
      dirty := fun u p => Quietly.dirtyFor_iff quietly
      locks := taken
      held := fun u q mode held => by
        obtain ⟨p, same | modes⟩ := taken
        · exact .inl (same ▸ held)
        · rw [modes, LockModes.set]
          split
          · exact .inr rfl
          · exact .inl held
      rows := fun f p file alone intact => by
        have rows := (tends f alone).quietly (bears f alone) file quietly intact
        exact ⟨(rows 0).1, fun slot => ⟨(rows slot).1.stored, (rows slot).2⟩⟩
      erased := fun f p file hit => by
        have file' : e'.catalog.file p.table = .ok f := catalog ▸ file
        exact Overrun.erases ⟨f, file', hit⟩ file' }

/-- **An insertion or a deletion that fails has done no harm**, whatever it fails at and
in whichever state of the pool: no row is changed, seen or stored, no page becomes dirty
or clean, and no lock becomes weaker. The row that was to be inserted or deleted is what
it was, and what is set aside can be asked for again. -/
theorem Served.unharmed (served : e.Served catalog) (asks : Asks catalog t e asked)
    (failed : e.attempt asked = (.error halt, e')) :
    Unharmed t e e' ∧ ∀ c, asked = .ok c → c.Resumes (c.turn (.ofEngine e)).2.1
      ∧ (halt.isAside = true → Asks catalog t e' (.ok (c.turn (.ofEngine e)).2.1)) := by
  obtain ⟨same, orderly, tends⟩ := served.tended
  cases asked with
  | error cause =>
    cases failed
    have none (f : HeapFile) : f.Bears fun _ _ => False := fun _ _ h => h.elim
    exact ⟨served.unharmed_of_quietly (fun f _ => none f) .refl ⟨⟨⟨0⟩, 0⟩, .inl rfl⟩,
      fun c made => by cases made⟩
  | ok c =>
    rcases asks.call same rfl with ⟨f, row, stage, rfl, file, known⟩ | ⟨row, record, rfl⟩
    · have spec := Call.insertRow_steps t row orderly fun alone : catalog.Alone f =>
        ⟨known alone, tends f alone⟩
      cases ran : (Call.insertRow t f row true).on (stage, e) with | mk outcome state =>
      obtain ⟨stage', e₁⟩ := state
      rw [ran] at spec
      have turned : (Call.insert t f row true stage).turn (.ofEngine e)
          = (outcome, .insert t f row true stage', (Workspace.ofEngine e).advance e₁) := by
        rw [Call.turn, show (Workspace.ofEngine e).engine = e from rfl, ran]
      rw [attempt, turned] at failed
      cases failed
      obtain ⟨quietly, ⟨n, taken⟩, knows⟩ := spec
      refine ⟨served.unharmed_of_quietly (fun g alone => ?_) quietly ⟨_, taken⟩, fun c made => ?_⟩
      · have spares := (tends g alone).spares (same.symm ▸ file)
        exact HeapFile.bears_appends spares fun eq => eq ▸ alone
      · cases made
        rw [turned]
        exact ⟨⟨rfl, rfl, rfl, rfl⟩, fun _ => .inserting f row stage' ⟨file, knows⟩⟩
    · have spec := Call.deleteRow_steps t row record (fun _ _ => False) orderly
      cases ran : (Call.deleteRow t row record true).on e with | mk outcome e₁ =>
      rw [ran] at spec
      have turned : (Call.delete t row record true).turn (.ofEngine e)
          = (outcome, .delete t row record true, (Workspace.ofEngine e).advance e₁) := by
        rw [Call.turn, Workspace.onEngine, show (Workspace.ofEngine e).engine = e from rfl, ran]
      rw [attempt, turned] at failed
      cases failed
      obtain ⟨quietly, -, taken⟩ := spec
      refine ⟨served.unharmed_of_quietly (fun _ _ _ _ h => h.elim) quietly ⟨_, taken⟩,
        fun c made => ?_⟩
      cases made
      rw [turned]
      exact ⟨rfl, fun _ => .deleting row record⟩

/-- **A pool with room for one page**, which a transaction has put a row into. -/
def crowded : Engine :=
  { pair with capacity := 1 }.perform (.insert ⟨1⟩ .numbers (.number 8 none) true (.scanning 0 0))

/-- Another transaction inserts a row into an empty table. It appends a page, locks it, and
finds no room for it. -/
theorem unharmed_crowded :
    (crowded.attempt (Session.insertion crowded ⟨2⟩ ⟨2⟩ (.number 9 none))).1
        = .error (.fault .poolFull)
      ∧ Unharmed ⟨2⟩ crowded
        (crowded.attempt (Session.insertion crowded ⟨2⟩ ⟨2⟩ (.number 9 none))).2 := by
  have full : (crowded.attempt (Session.insertion crowded ⟨2⟩ ⟨2⟩ (.number 9 none))).1
      = .error (.fault .poolFull) := by
    rfl
  have started : start ⟨9, 1, 1⟩ pair.volume .pair = .ok { pair with capacity := 1 } := rfl
  have serves : (Deed.insert ⟨1⟩ .numbers (.number 8 none) true (.scanning 0 0)).Serves .pair
      { pair with capacity := 1 } := by
    refine ⟨rfl, fun _ => ?_⟩
    exact InsertionStage.known_firstStage { pair with capacity := 1 }
  have served : crowded.Served .pair := (Served.start started).perform _ rfl id serves
  exact ⟨full, (served.unharmed (.insertion ⟨2⟩ (.number 9 none)) (Prod.ext full rfl)).1⟩

end Engine

end Tablespace
