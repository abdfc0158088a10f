import Tablespace.Proofs.Session.Isolation

/-!
# What a transaction can rely on that writes nothing

A transaction that neither inserts nor deletes, nor ends, keeps every lock
that it has (`Session.Performed.held`). The pages that it holds show the same
rows after each action (`Session.Performed.seen_eq`), whoever acts.

If it holds all pages of a file, then the file does not become longer
(`Session.Performed.guarded_after`). An insertion looks at the first page before it
appends one, and waits for it; one that has been looking through the file for
longer waits for a page further on. This needs a file that has pages: into an
empty file an insertion appends without asking for any lock. And it needs that
no insertion is past the pages already (`Session.Within`): one that has found them
all full, and has given their locks back, asks for none of them again.
-/

namespace Tablespace

/-! ## One turn of a call -/

namespace Call

variable {w : Workspace} {c c' : Call} {t u : TxnId} {p : PageId} {f : HeapFile}
  {steps : Option Nat}

theorem Resumes.writer (resumes : c.Resumes c') : c'.writer? = c.writer? := by
  cases c <;> cases c' <;> simp_all [Resumes, writer?]

/-- A row is changed for the one who inserts or deletes. -/
theorem writer_of_change {outcome : Except Halt Answer} {change : Change}
    (h : c.change? outcome = some (u, change)) : c.writer? = some u := by
  unfold change? at h
  split at h
  · obtain ⟨record, -, same⟩ := Option.map_eq_some_iff.1 h
    cases same
    rfl
  · cases h
    rfl
  · cases h

/-- **Looking gives up no lock**, neither one's own nor another's. -/
theorem held_of_looks {e e' : Engine} (looks : Engine.Looks u e e') (coherent : e.Coherent)
    (held : e.locks.mode? t p ≠ none) : e'.locks.mode? t p ≠ none := by
  by_cases same : t = u
  · exact same ▸ looks.held p (same ▸ held)
  · rwa [(looks.moves.effect coherent).modes t p same]

variable (steps) in
/-- **A call that inserts and deletes nothing only looks.** -/
theorem turn_looks (coherent : w.engine.Coherent) (files : w.OverFiles) (reads : c.writer? = none) :
    ∃ u, Engine.Looks u w.engine (c.turn w steps).2.2.engine := by
  cases c with
  | lock u page mode =>
    have looks : Engine.Looks u w.engine
        ((Engine.onLocks (LockTable.acquire u page mode)).on w.engine).2 :=
      Engine.looks_request coherent
    exact ⟨u, looks⟩
  | fetch u page mode keep =>
    have looks := Engine.looks_fetch coherent u page mode
    rw [← (fetchPage_spec u page mode keep w).1] at looks
    exact ⟨u, looks⟩
  | method k m rows =>
    cases found : w.cursors[k]? with
    | none =>
      rw [turn_method_of_none found]
      exact ⟨⟨0⟩, .refl _ _⟩
    | some cursor =>
      obtain ⟨scan, state, rfl, -⟩ := cursor_of_overFiles files found
      obtain ⟨state', -, looks⟩ :=
        Cursor.looks_run scan rows state m steps coherent
      rw [turn_method_of_some found]
      exact ⟨scan.txn, looks⟩
  | insert => cases reads
  | delete => cases reads

/-- **A turn of a call gives up no lock** of a transaction that it does not
insert or delete for. -/
theorem turn_held (coherent : w.engine.Coherent) (files : w.OverFiles) (sound : c.Sound w.engine)
    (other : c.writer? ≠ some t) (held : w.engine.locks.mode? t p ≠ none) :
    (c.turn w steps).2.2.engine.locks.mode? t p ≠ none := by
  cases writer : c.writer? with
  | none =>
    obtain ⟨u, looks⟩ := turn_looks steps coherent files writer
    exact held_of_looks looks coherent held
  | some u =>
    obtain ⟨v, changes, moves, -, mover⟩ := (turn_spec steps coherent files sound).moves
    have apart : t ≠ v := fun eq => other (by rw [writer, eq, mover u writer])
    rwa [(moves.effect coherent).modes t p apart]

/-- **An insertion into the file that is past its pages.** -/
def Past (f : HeapFile) : Call → Prop
  | insert _ g _ _ stage => g = f ∧ stage.Past
  | lock .. | fetch .. | delete .. | method .. => False

/-- Only an insertion can be past the pages. -/
theorem not_past_of_reader (reads : c.writer? = none) : ¬c.Past f := by
  cases c with
  | lock | fetch | method => exact not_false
  | insert | delete => cases reads

/-- An insertion that has just been made is not past the pages, if there are
any. -/
theorem Opens.not_past {e : Engine} (opens : c.Opens e)
    (some : 0 < (f.pageCount e.volume).toNat) : ¬c.Past f := by
  cases c with
  | lock | fetch | delete | method => exact not_false
  | insert u g row mark stage =>
    rintro ⟨rfl, past⟩
    rw [opens] at past
    exact absurd some (Nat.not_lt.2 past)

variable (steps mark) in
/-- **An insertion into a file whose pages are held** by another transaction goes
no further, unless it is past them. -/
theorem insertRow_of_held {e : Engine} {stage : InsertionStage} (row : Tuple)
    (known : stage.Known f e.volume) (inside : ¬stage.Past)
    (small : f.count e.volume < 4294967296) (other : t ≠ u)
    (held : ∀ i, i < f.count e.volume →
      e.locks.mode? t ⟨f.table, UInt32.ofNat i⟩ ≠ none) :
    ((insertRow u f row mark steps).on (stage, e)).2.2.volume = e.volume
      ∧ ¬((insertRow u f row mark steps).on (stage, e)).2.1.Past := by
  obtain ⟨halt, stage', locks, stopped, inside'⟩ := HeapFile.insertFrom_of_held row
    (steps.getD (f.insertionFuel (stage, e))) known inside small other held
  have run : (f.insert u row steps).on (stage, e)
      = (.error halt, stage', { e with locks := locks }) := by
    rw [HeapFile.on_insert, stopped]
  rw [insertRow, Turn.on_bind_error run]
  exact ⟨rfl, inside'⟩

/-- An insertion into a file leaves the other files as long as they are. -/
theorem insertRow_elsewhere {e : Engine} {g : HeapFile} {stage : InsertionStage} (row : Tuple)
    (coherent : e.Coherent) (file : e.catalog.file g.table = .ok g)
    (known : stage.Known g e.volume) (path : f.path ≠ g.path) :
    (((insertRow u g row true steps).on (stage, e)).2.2.volume.content f.path).size
      = (e.volume.content f.path).size := by
  have spec := insertRow_spec u row steps coherent file known
  cases h : (insertRow u g row true steps).on (stage, e) with | mk outcome state =>
  rw [h] at spec
  cases outcome with
  | error halt => rw [spec.1.elsewhere f.path path]
  | ok answer =>
    obtain ⟨-, -, e₁, -, -, -, -, searches, volume⟩ := spec
    rw [volume, searches.elsewhere f.path path]

/-- A deletion writes no file. -/
theorem deleteRow_volume {e : Engine} {row : Tuple} {record : RecordId} (coherent : e.Coherent)
    (place : row.record = some record) :
    ((deleteRow u row record true).on e).2.volume = e.volume := by
  have spec := deleteRow_spec (t := u) coherent place
  cases h : (deleteRow u row record true).on e with | mk outcome e' =>
  rw [h] at spec
  cases outcome with
  | error halt => exact spec.volume
  | ok answer => exact spec.2

variable (steps) in
/-- **A file does not become longer** while all its pages are held by a
transaction that does not insert, unless an insertion is past them; and none gets
past them. -/
theorem turn_guarded (coherent : w.engine.Coherent) (files : w.OverFiles) (sound : c.Sound w.engine)
    (inside : ¬c.Past f) (file : w.engine.catalog.file f.table = .ok f)
    (other : c.writer? ≠ some t) (small : f.count w.engine.volume < 4294967296)
    (held : ∀ i, i < f.count w.engine.volume →
      w.engine.locks.mode? t ⟨f.table, UInt32.ofNat i⟩ ≠ none) :
    ((c.turn w steps).2.2.engine.volume.content f.path).size
        = (w.engine.volume.content f.path).size
      ∧ ¬(c.turn w steps).2.1.Past f := by
  cases writer : c.writer? with
  | none =>
    obtain ⟨u, looks⟩ := turn_looks steps coherent files writer
    have later := (turn_spec steps coherent files sound).resumes.writer
    exact ⟨by rw [looks.volume], not_past_of_reader (later.trans writer)⟩
  | some u =>
    cases c with
    | lock | fetch | method => cases writer
    | delete u row record mark =>
      obtain ⟨rfl, place⟩ := sound
      refine ⟨?_, not_false⟩
      show (((deleteRow u row record true).on w.engine).2.volume.content f.path).size = _
      rw [deleteRow_volume coherent place]
    | insert u g row mark stage =>
      obtain ⟨rfl, file', known⟩ := sound
      by_cases path : f.path = g.path
      · -- into this file: its pages are held, and the insertion stops at one of them
        have same := coherent.eq_of_path file' file path
        subst same
        obtain ⟨volume, inside'⟩ := insertRow_of_held steps true row known
          (fun past => inside ⟨rfl, past⟩) small
          (fun eq => other (congrArg Option.some eq.symm)) held
        refine ⟨?_, fun past => inside' past.2⟩
        show (((insertRow u f row true steps).on (stage, w.engine)).2.2.volume.content f.path).size
          = _
        rw [volume]
      · exact ⟨insertRow_elsewhere row coherent file' known path,
          fun past => path (congrArg HeapFile.path past.1.symm)⟩

end Call

namespace Session

variable {s s' : Session} {a : Action} {actions : List Action} {history : List Event} {t : TxnId}
  {f : HeapFile}

/-! ## One action -/

/-- **A transaction for which no blocked call inserts or deletes.** -/
def Quiet (t : TxnId) (s : Session) : Prop :=
  ∀ b ∈ s.blocked, b.call.writer? ≠ some t

theorem Turns.writer_ne {l r : List (Blocked Call)} {ticket : Nat} {c : Call}
    (turns : Turns s a l r ticket c) (quiet : s.Quiet t) (reads : a.writer? ≠ some t) :
    c.writer? ≠ some t := by
  cases turns with
  | made makes before last => rwa [makes.writer]
  | blocked taken =>
    refine quiet ⟨ticket, c⟩ ?_
    rw [taken]
    exact List.mem_append_right _ List.mem_cons_self

namespace Performed

variable (performed : Performed s a history s') (sound : s.Sound) (quiet : s.Quiet t)
  (reads : a.writer? ≠ some t)

include performed sound quiet reads

/-- It stays so as long as it makes no such call. -/
theorem quiet_after : s'.Quiet t := by
  cases performed with
  | still w history same cursors files silent unchanged running => exact quiet
  | waits l r ticket c steps turns waits =>
    intro b hb
    simp only [List.mem_append, List.mem_cons] at hb
    rcases hb with old | rfl | old
    · exact quiet b (turns.mem (List.mem_append_left _ old))
    · -- the call that waits now is the one whose turn it was
      have same := (turns.turned sound steps).resumes.writer
      show (c.turn s.workspace steps).2.1.writer? ≠ some t
      rw [same]
      exact turns.writer_ne quiet reads
    · exact quiet b (turns.mem (List.mem_append_right _ old))
  | answers l r ticket c steps turns answered => exact fun b hb => quiet b (turns.mem hb)
  | ends u committed w writer ended cursors => exact quiet

omit sound in
/-- Nothing is changed for it. -/
theorem changesOf_eq_nil : Event.changesOf t history = [] := by
  cases performed with
  | still w history same cursors files silent unchanged running =>
    rw [Event.changesOf, unchanged]
    rfl
  | waits l r ticket c steps turns waits => rfl
  | answers l r ticket c steps turns answered =>
    have other := turns.writer_ne quiet reads
    rw [Event.changesOf, Event.changes, List.filterMap_cons, Event.change?]
    cases changed : c.change? (c.turn s.workspace steps).1 with
    | none => rfl
    | some change =>
      have apart : change.1 ≠ t := fun eq => other (eq ▸ Call.writer_of_change changed)
      simp [apart]
  | ends u committed w writer ended cursors => rfl

/-- **It keeps every lock.** -/
theorem held {p : PageId} (held : s.engine.locks.mode? t p ≠ none) :
    s'.engine.locks.mode? t p ≠ none := by
  cases performed with
  | still w history same cursors files silent unchanged running =>
    show w.engine.locks.mode? t p ≠ none
    rwa [same]
  | waits l r ticket c steps turns waits =>
    exact Call.turn_held sound.coherent sound.files (turns.sound sound)
      (turns.writer_ne quiet reads) held
  | answers l r ticket c steps turns answered =>
    exact Call.turn_held sound.coherent sound.files (turns.sound sound)
      (turns.writer_ne quiet reads) held
  | ends u committed w writer ended cursors =>
    have other : t ≠ u := fun eq => reads (eq ▸ writer)
    show w.engine.locks.mode? t p ≠ none
    rwa [ended.modes, LockModes.without, if_neg other]

/-- **A page that it holds shows the same rows as before.** -/
theorem seen_eq (file : s.engine.catalog.file f.table = .ok f) {i : Nat}
    (after : i < (f.pageCount s'.engine.volume).toNat)
    (held : s.engine.locks.mode? t ⟨f.table, UInt32.ofNat i⟩ ≠ none) (slot : SlotId) :
    s'.engine.seen ⟨⟨f.table, UInt32.ofNat i⟩, slot⟩
      = s.engine.seen ⟨⟨f.table, UInt32.ofNat i⟩, slot⟩ := by
  have step := (performed.spec sound).2
  have intact := Engine.not_overrun_of_lt (step.catalog sound ▸ file) after
  have seen :=
    (step.isolated sound held (performed.held sound quiet reads held) intact).2 slot
  rwa [performed.changesOf_eq_nil quiet reads, Rows.after_nil] at seen

/-- **Pages that it holds show the same rows as before**, as long as they are
counted. -/
theorem rowsBefore_eq (file : s.engine.catalog.file f.table = .ok f) {n : Nat}
    (counted : n ≤ (f.pageCount s'.engine.volume).toNat)
    (held : ∀ i, i < n → s.engine.locks.mode? t ⟨f.table, UInt32.ofNat i⟩ ≠ none) :
    s'.engine.rowsBefore f.table n = s.engine.rowsBefore f.table n := by
  obtain ⟨sound', step⟩ := performed.spec sound
  refine Engine.rowsBefore_congr fun i hi =>
    Engine.pageRows_congr sound.coherent sound'.coherent (step.catalog sound) ?_
  exact performed.seen_eq sound quiet reads file (Nat.lt_of_lt_of_le hi counted) (held i hi)

end Performed

/-! ## Files that are held -/

/-- **No insertion into the file that was set aside is past its pages.** -/
def Within (f : HeapFile) (s : Session) : Prop :=
  ∀ b ∈ s.blocked, ¬b.call.Past f

theorem Turns.not_past {l r : List (Blocked Call)} {ticket : Nat} {c : Call}
    (turns : Turns s a l r ticket c) (within : s.Within f)
    (some : 0 < (f.pageCount s.engine.volume).toNat) : ¬c.Past f := by
  cases turns with
  | made makes before last => exact makes.opens.not_past some
  | blocked taken =>
    refine within ⟨ticket, c⟩ ?_
    rw [taken]
    exact List.mem_append_right _ List.mem_cons_self

/-- **A transaction holds every page of a file**, of which there is one, and no
insertion is past them. -/
structure Guarded (t : TxnId) (f : HeapFile) (s : Session) : Prop where
  file : s.engine.catalog.file f.table = .ok f
  some : 0 < (f.pageCount s.engine.volume).toNat
  held : ∀ i, i < (f.pageCount s.engine.volume).toNat →
    s.engine.locks.mode? t ⟨f.table, UInt32.ofNat i⟩ ≠ none
  /-- A file of `2 ^ 32` pages or more becomes no longer in any case. -/
  within : f.count s.engine.volume < 4294967296 → s.Within f

namespace Performed

variable (performed : Performed s a history s') (sound : s.Sound) (quiet : s.Quiet t)
  (reads : a.writer? ≠ some t) (guarded : Guarded t f s)

include performed sound quiet reads guarded

/-- **An action leaves a file as long as it is** whose pages are all held, and
no insertion gets past them. -/
theorem guarded_small (small : f.count s.engine.volume < 4294967296) :
    (s'.engine.volume.content f.path).size = (s.engine.volume.content f.path).size
      ∧ s'.Within f := by
  have number : (f.pageCount s.engine.volume).toNat = f.count s.engine.volume := by
    rw [HeapFile.toNat_pageCount, Nat.mod_eq_of_lt small]
  have within := guarded.within small
  have turned {l r : List (Blocked Call)} {ticket : Nat} {c : Call} (steps : Option Nat)
      (turns : Turns s a l r ticket c) :=
    Call.turn_guarded steps sound.coherent sound.files (turns.sound sound)
      (turns.not_past within guarded.some) guarded.file (turns.writer_ne quiet reads) small
      fun i hi => guarded.held i (number ▸ hi)
  cases performed with
  | still w history same cursors files silent unchanged running =>
    refine ⟨?_, within⟩
    show (w.engine.volume.content f.path).size = _
    rw [same]
  | waits l r ticket c steps turns waits =>
    obtain ⟨size, inside⟩ := turned steps turns
    refine ⟨size, fun b hb => ?_⟩
    simp only [List.mem_append, List.mem_cons] at hb
    rcases hb with old | rfl | old
    · exact within b (turns.mem (List.mem_append_left _ old))
    · exact inside
    · exact within b (turns.mem (List.mem_append_right _ old))
  | answers l r ticket c steps turns answered =>
    exact ⟨(turned steps turns).1, fun b hb => within b (turns.mem hb)⟩
  | ends u committed w writer ended cursors =>
    exact ⟨ended.sizes _ _ guarded.file, within⟩

/-- **A file stays held**, as long as it is, and its rows are seen as before. -/
theorem guarded_after :
    f.pageCount s'.engine.volume = f.pageCount s.engine.volume ∧ Guarded t f s'
      ∧ s'.engine.rowsBefore f.table (f.pageCount s.engine.volume).toNat
        = s.engine.rowsBefore f.table (f.pageCount s.engine.volume).toNat := by
  obtain ⟨sound', step⟩ := performed.spec sound
  have number : (f.pageCount s.engine.volume).toNat = f.count s.engine.volume % 4294967296 :=
    HeapFile.toNat_pageCount
  have count : f.count s'.engine.volume = f.count s.engine.volume := by
    by_cases small : f.count s.engine.volume < 4294967296
    · exact HeapFile.count_congr (performed.guarded_small sound quiet reads guarded small).1
    · -- a file of `2 ^ 32` pages or more is appended to in the place of a page
      have grown := (step.grown sound _ _ guarded.file).count_le
      omega
  have same : f.pageCount s'.engine.volume = f.pageCount s.engine.volume :=
    congrArg UInt32.ofNat count
  refine ⟨same,
    { file := step.catalog sound ▸ guarded.file
      some := same ▸ guarded.some
      held := fun i hi => performed.held sound quiet reads (guarded.held i (same ▸ hi))
      within := fun small => ?_ },
    performed.rowsBefore_eq sound quiet reads guarded.file (same ▸ Nat.le_refl _) guarded.held⟩
  exact (performed.guarded_small sound quiet reads guarded (count ▸ small)).2

end Performed

/-! ## Every run -/

/-- A transaction stays quiet that makes no call to insert or delete. -/
theorem run_quiet (sound : s.Sound) (quiet : s.Quiet t)
    (reads : ∀ a ∈ actions, a.writer? ≠ some t) : (s.run actions).2.Quiet t := by
  induction actions generalizing s with
  | nil => exact quiet
  | cons a actions ih =>
    have performed := performed sound a
    exact ih (performed.spec sound).1
      (performed.quiet_after sound quiet (reads a List.mem_cons_self))
      fun b hb => reads b (List.mem_cons_of_mem _ hb)

/-- **Actions leave a file as long as it is** whose pages are all held, and
its rows as they are seen. -/
theorem run_guarded (sound : s.Sound) (quiet : s.Quiet t)
    (reads : ∀ a ∈ actions, a.writer? ≠ some t) (guarded : Guarded t f s) :
    f.pageCount (s.run actions).2.engine.volume = f.pageCount s.engine.volume
      ∧ Guarded t f (s.run actions).2
      ∧ (s.run actions).2.engine.rowsBefore f.table (f.pageCount s.engine.volume).toNat
        = s.engine.rowsBefore f.table (f.pageCount s.engine.volume).toNat := by
  induction actions generalizing s with
  | nil => exact ⟨rfl, guarded, rfl⟩
  | cons a actions ih =>
    have performed := performed sound a
    have here := reads a List.mem_cons_self
    obtain ⟨count, guarded', rows⟩ := performed.guarded_after sound quiet here guarded
    obtain ⟨count', guarded'', rows'⟩ := ih (performed.spec sound).1
      (performed.quiet_after sound quiet here)
      (fun b hb => reads b (List.mem_cons_of_mem _ hb)) guarded'
    refine ⟨count'.trans count, guarded'', ?_⟩
    rw [count] at rows'
    exact rows'.trans rows

end Session

end Tablespace
