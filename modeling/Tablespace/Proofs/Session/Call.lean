import Tablespace.Proofs.Heap.Insertion
import Tablespace.Proofs.Session.Cursor

/-!
# What a call does

One turn of a call is a series of moves of the transaction that it is for
(`Call.turn_spec`), however many steps it may take. The moves change the row that
the call has inserted or deleted if the call has answered so (`Call.change?`), and
no row otherwise: a call that is cut short leaves no trace in what is stored or
seen.
-/

namespace Tablespace

/-! ## Insertion and deletion, with the mark -/

namespace Call

open Engine (Moves Looks)

variable {e e' : Engine} {t : TxnId} {f : HeapFile} {row : Tuple} {stage : InsertionStage}
  {record : RecordId} {steps : Option Nat}

/-- An insertion marks the page that it has put the row into. -/
theorem on_insertRow : (insertRow t f row true steps).on (stage, e)
    = match (f.insert t row steps).on (stage, e) with
      | (.error halt, state) => (.error halt, state)
      | (.ok (stored, q), stage', e') =>
        (((Engine.install t q).on e').1.map fun _ => .row stored, stage',
          ((Engine.install t q).on e').2) := by
  rw [insertRow, Turn.on_bind]
  rcases (f.insert t row steps).on (stage, e) with ⟨outcome, stage', e'⟩
  cases outcome with
  | error halt => rfl
  | ok result =>
    dsimp only
    rw [if_pos rfl, Turn.on_bind, HeapFile.inEngine, Turn.on_within]
    rcases (Engine.install t result.2).on e' with ⟨outcome, e''⟩
    cases outcome <;> rfl

/-- A deletion marks the page that it has taken the row out of. -/
theorem on_deleteRow : (deleteRow t row record true).on e
    = match (Engine.deleteAt t row record).on e with
      | (.error halt, e') => (.error halt, e')
      | (.ok q, e') =>
        (((Engine.install t q).on e').1.map fun _ => .done, ((Engine.install t q).on e').2) := by
  rw [deleteRow, Turn.on_bind]
  rcases (Engine.deleteAt t row record).on e with ⟨outcome, e'⟩
  cases outcome with
  | error halt => rfl
  | ok q =>
    dsimp only
    rw [if_pos rfl, Turn.on_bind]
    rcases (Engine.install t q).on e' with ⟨outcome, e''⟩
    cases outcome <;> rfl

variable (t row steps) in
/-- **What an insertion comes to** when the page is marked: one changed row,
or none. -/
theorem insertRow_spec (coherent : e.Coherent) (file : e.catalog.file f.table = .ok f)
    (known : stage.Known f e.volume) :
    match (insertRow t f row true steps).on (stage, e) with
    | (.ok answer, _, e') => ∃ stored record e₁, answer = .row stored
      ∧ stored = row.located (some record) ∧ record.page.table = f.table
      ∧ Moves t e [⟨record, some (f.schema.keep row.values)⟩] e'
      ∧ f.Searches t e e₁ ∧ e'.volume = e₁.volume
    | (.error _, stage', e') => f.Searches t e e' ∧ stage'.Known f e'.volume := by
  have spec := HeapFile.insertFrom_spec t row (steps.getD (f.insertionFuel (stage, e))) coherent
    file known
  rw [← HeapFile.on_insert] at spec
  rw [on_insertRow]
  cases inserted : (f.insert t row steps).on (stage, e) with | mk outcome state =>
  rw [inserted] at spec
  obtain ⟨stage', e₂⟩ := state
  cases outcome with
  | error halt => exact spec
  | ok result =>
    obtain ⟨stored, q⟩ := result
    obtain ⟨e₁, record, first, table, place, altered⟩ := spec
    obtain ⟨e₃, installed, moves, volume⟩ := altered.install
    dsimp only
    rw [installed]
    exact ⟨stored, record, e₁, rfl, place, table, first.moves.after moves, first, volume⟩

/-- **What a deletion comes to** when the page is marked. -/
theorem deleteRow_spec (coherent : e.Coherent) (place : row.record = some record) :
    match (deleteRow t row record true).on e with
    | (.ok _, e') => Moves t e [⟨record, none⟩] e' ∧ e'.volume = e.volume
    | (.error _, e') => Looks t e e' := by
  rw [on_deleteRow]
  cases deleted : (Engine.deleteAt t row record).on e with | mk outcome e₂ =>
  cases outcome with
  | error halt => exact Engine.deleteAt_error coherent deleted
  | ok q =>
    obtain ⟨e₁, looks, altered⟩ := Engine.deleteAt_ok coherent place deleted
    obtain ⟨e₃, installed, moves, volume⟩ := altered.install
    dsimp only
    rw [installed]
    exact ⟨looks.moves.after moves, volume.trans looks.volume⟩

/-! ## Calls -/

/-- **The row that a call has changed**, by what it answered, and for whom. -/
def change? : Call → Except Halt Answer → Option (TxnId × Change)
  | insert t f row _ _, .ok (.row stored) =>
    stored.record.map fun record => (t, ⟨record, some (f.schema.keep row.values)⟩)
  | delete t _ record _, .ok _ => some (t, ⟨record, none⟩)
  | _, _ => none

/-- The transaction that a call inserts or deletes a row for. -/
def writer? : Call → Option TxnId
  | insert t .. | delete t .. => some t
  | lock .. | fetch .. | method .. => none

/-- **A call that is made through the catalog**: it marks what it changes, and
works on the file that the catalog has. -/
def Sound (e : Engine) : Call → Prop
  | insert _ f _ mark stage =>
    mark = true ∧ e.catalog.file f.table = .ok f ∧ stage.Known f e.volume
  | delete _ row record mark => mark = true ∧ row.record = some record
  | lock .. | fetch .. | method .. => True

/-- **A call that is set aside**, to be taken up again. -/
def Aside (outcome : Except Halt Answer) : Prop :=
  ∃ halt, outcome = .error halt ∧ halt.isAside = true

/-- The same call, perhaps further on. -/
def Resumes : Call → Call → Prop
  | insert t f row mark _, insert t' f' row' mark' _ => t = t' ∧ f = f' ∧ row = row' ∧ mark = mark'
  | method k m _, method k' m' _ => k = k' ∧ m = m'
  | c, c' => c = c'

end Call

/-- **All cursors are over files of the catalog.** -/
def Workspace.OverFiles (w : Workspace) : Prop :=
  ∀ c ∈ w.cursors, ∃ scan state, c = .file scan state
    ∧ w.engine.catalog.file scan.file.table = .ok scan.file

namespace Call

open Engine (Moves Looks)

variable {w : Workspace} {c : Call} {steps : Option Nat}

/-- A call stays sound when files grow. -/
theorem Sound.mono {e e' : Engine} (sound : c.Sound e) (catalog : e'.catalog = e.catalog)
    (grown : ∀ table f, e.catalog.file table = .ok f → f.Grown e.volume e'.volume) :
    c.Sound e' := by
  cases c with
  | insert t f row mark stage =>
    exact ⟨sound.1, catalog ▸ sound.2.1, sound.2.2.mono (grown _ _ sound.2.1)⟩
  | delete t row record mark => exact sound
  | lock t page mode => trivial
  | fetch t page mode keep => trivial
  | method k m collected => trivial

/-- The cursor of a workspace whose cursors are over files. -/
theorem cursor_of_overFiles (files : w.OverFiles) {k : Nat} {cursor : Cursor}
    (h : w.cursors[k]? = some cursor) : ∃ scan state, cursor = .file scan state
      ∧ w.engine.catalog.file scan.file.table = .ok scan.file :=
  files cursor (List.mem_of_getElem? h)

/-- Fetching a page through a workspace is fetching it through the engine, and
no cursor is touched. -/
theorem fetchPage_spec (t : TxnId) (page : PageId) (mode : LockMode) (keep : Bool)
    (w : Workspace) :
    (fetchPage t page mode keep w).2.engine = ((Engine.fetch t page mode).on w.engine).2
      ∧ (fetchPage t page mode keep w).2.cursors = w.cursors := by
  unfold fetchPage Workspace.onEngine
  cases (Engine.fetch t page mode).on w.engine with | mk outcome e =>
  cases outcome with
  | error halt => exact ⟨rfl, rfl⟩
  | ok p =>
    dsimp only
    split
    · unfold Workspace.hold
      split <;> exact ⟨rfl, rfl⟩
    · exact ⟨rfl, rfl⟩

theorem turn_method_of_none {k : Nat} {m : Method} {collected : Array Tuple}
    (h : w.cursors[k]? = none) :
    (method k m collected).turn w steps = (.ok .done, method k m collected, w) := by
  simp only [turn, h]

theorem turn_method_of_some {k : Nat} {m : Method} {collected : Array Tuple} {cursor : Cursor}
    (h : w.cursors[k]? = some cursor) :
    (method k m collected).turn w steps
      = ((cursor.run m collected w.engine steps).1,
        method k m (cursor.run m collected w.engine steps).2.1,
        (w.advance (cursor.run m collected w.engine steps).2.2.2).setCursor k
          (cursor.run m collected w.engine steps).2.2.1) := by
  simp only [turn, h]

/-- **What a turn of a call comes to.** -/
structure Turned (w : Workspace) (c : Call) (outcome : Except Halt Answer) (c' : Call)
    (w' : Workspace) : Prop where
  /-- It is a series of moves, which change what the answer says. -/
  moves : ∃ t changes, Moves t w.engine changes w'.engine
    ∧ (c.change? outcome).toList = changes.map (fun change => (t, change))
    ∧ ∀ u, c.writer? = some u → t = u
  /-- If it is cut short, it is the same call as before and as sound. -/
  sound : ∀ halt, outcome = .error halt → c'.Sound w'.engine
  resumes : c.Resumes c'
  files : w'.OverFiles

/-- Cursors stay over files when the engine moves. -/
theorem overFiles_of_moves {w' : Workspace} {t : TxnId} {changes : List Change}
    (coherent : w.engine.Coherent) (files : w.OverFiles)
    (moves : Moves t w.engine changes w'.engine) (cursors : w'.cursors = w.cursors) :
    w'.OverFiles := by
  intro c hc
  obtain ⟨scan, state, rfl, file⟩ := files c (cursors ▸ hc)
  exact ⟨scan, state, rfl, by rw [(moves.effect coherent).catalog]; exact file⟩

section Turned

variable (coherent : w.engine.Coherent) (files : w.OverFiles)

include coherent files

theorem turned_lock (t : TxnId) (page : PageId) (mode : LockMode) :
    Turned w (lock t page mode) ((lock t page mode).turn w steps).1
      ((lock t page mode).turn w steps).2.1 ((lock t page mode).turn w steps).2.2 := by
  have looks : Looks t w.engine ((lock t page mode).turn w steps).2.2.engine :=
    Engine.looks_request coherent
  exact
    { moves := ⟨t, [], looks.moves, by simp [change?], fun u h => by cases h⟩
      sound := fun _ _ => trivial
      resumes := rfl
      files := overFiles_of_moves coherent files looks.moves rfl }

theorem turned_fetch (t : TxnId) (page : PageId) (mode : LockMode) (keep : Bool) :
    Turned w (fetch t page mode keep) ((fetch t page mode keep).turn w steps).1
      ((fetch t page mode keep).turn w steps).2.1 ((fetch t page mode keep).turn w steps).2.2 := by
  obtain ⟨engine, cursors⟩ := fetchPage_spec t page mode keep w
  have looks : Looks t w.engine ((fetch t page mode keep).turn w steps).2.2.engine := by
    show Looks t w.engine (fetchPage t page mode keep w).2.engine
    rw [engine]
    exact Engine.looks_fetch coherent t page mode
  exact
    { moves := ⟨t, [], looks.moves, by simp [change?], fun u h => by cases h⟩
      sound := fun _ _ => trivial
      resumes := rfl
      files := overFiles_of_moves coherent files looks.moves cursors }

theorem turned_insert {t : TxnId} {f : HeapFile} {row : Tuple} {mark : Bool}
    {stage : InsertionStage} (sound : (insert t f row mark stage).Sound w.engine) :
    Turned w (insert t f row mark stage) ((insert t f row mark stage).turn w steps).1
      ((insert t f row mark stage).turn w steps).2.1
      ((insert t f row mark stage).turn w steps).2.2 := by
  obtain ⟨rfl, file, known⟩ := sound
  have spec := insertRow_spec t row steps coherent file known
  unfold turn
  dsimp only
  cases h : (insertRow t f row true steps).on (stage, w.engine) with | mk outcome state =>
  obtain ⟨stage', e'⟩ := state
  rw [h] at spec
  cases outcome with
  | error halt =>
    have catalog := (spec.1.moves.effect coherent).catalog
    exact
      { moves := ⟨t, [], spec.1.moves, by simp [change?], fun u => Option.some.inj⟩
        sound := fun _ _ => ⟨rfl, catalog ▸ file, spec.2⟩
        resumes := ⟨rfl, rfl, rfl, rfl⟩
        files := overFiles_of_moves coherent files spec.1.moves rfl }
  | ok answer =>
    obtain ⟨stored, record, e₁, rfl, rfl, -, moves, -, -⟩ := spec
    exact
      { moves := ⟨t, _, moves, by simp [change?, Tuple.located], fun u => Option.some.inj⟩
        sound := fun _ eq => by cases eq
        resumes := ⟨rfl, rfl, rfl, rfl⟩
        files := overFiles_of_moves coherent files moves rfl }

theorem turned_delete {t : TxnId} {row : Tuple} {record : RecordId} {mark : Bool}
    (sound : (delete t row record mark).Sound w.engine) :
    Turned w (delete t row record mark) ((delete t row record mark).turn w steps).1
      ((delete t row record mark).turn w steps).2.1
      ((delete t row record mark).turn w steps).2.2 := by
  obtain ⟨rfl, place⟩ := sound
  have spec := deleteRow_spec (t := t) coherent place
  unfold turn Workspace.onEngine
  dsimp only
  cases h : (deleteRow t row record true).on w.engine with | mk outcome e' =>
  rw [h] at spec
  cases outcome with
  | error halt =>
    exact
      { moves := ⟨t, [], spec.moves, by simp [change?], fun u => Option.some.inj⟩
        sound := fun _ _ => ⟨rfl, place⟩
        resumes := rfl
        files := overFiles_of_moves coherent files spec.moves rfl }
  | ok answer =>
    exact
      { moves := ⟨t, _, spec.1, by simp [change?], fun u => Option.some.inj⟩
        sound := fun _ eq => by cases eq
        resumes := rfl
        files := overFiles_of_moves coherent files spec.1 rfl }

theorem turned_method (k : Nat) (m : Method) (collected : Array Tuple) :
    Turned w (method k m collected) ((method k m collected).turn w steps).1
      ((method k m collected).turn w steps).2.1 ((method k m collected).turn w steps).2.2 := by
  cases found : w.cursors[k]? with
  | none =>
    rw [turn_method_of_none found]
    exact
      { moves := ⟨⟨0⟩, [], .refl, by simp [change?], fun u h => by cases h⟩
        sound := fun _ _ => trivial
        resumes := ⟨rfl, rfl⟩
        files := files }
  | some cursor =>
    obtain ⟨scan, state, rfl, file⟩ := cursor_of_overFiles files found
    obtain ⟨state', same, looks⟩ := Cursor.looks_run scan collected state m steps coherent
    have catalog := (looks.moves.effect coherent).catalog
    rw [turn_method_of_some found]
    generalize (Cursor.file scan state).run m collected w.engine steps = r at same looks catalog
    exact
      { moves := ⟨scan.txn, [], looks.moves, by simp [change?], fun u h => by cases h⟩
        sound := fun _ _ => trivial
        resumes := ⟨rfl, rfl⟩
        files := fun c hc => by
          -- the cursor that was moved is over the same file as before
          have engine : ((w.advance r.2.2.2).setCursor k r.2.2.1).engine.catalog
            = w.engine.catalog := catalog
          rw [engine]
          rcases List.mem_or_eq_of_mem_set hc with old | new
          · exact files c old
          · exact ⟨scan, state', new.trans same, file⟩ }

variable (steps) in
/-- **What a turn of a call does.** -/
theorem turn_spec (sound : c.Sound w.engine) :
    Turned w c (c.turn w steps).1 (c.turn w steps).2.1 (c.turn w steps).2.2 := by
  cases c with
  | lock t page mode => exact turned_lock coherent files t page mode
  | fetch t page mode keep => exact turned_fetch coherent files t page mode keep
  | insert t f row mark stage => exact turned_insert coherent files sound
  | delete t row record mark => exact turned_delete coherent files sound
  | method k m collected => exact turned_method coherent files k m collected

end Turned

end Call

end Tablespace
