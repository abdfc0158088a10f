import Tablespace.Proofs.Pool.Completion
import Tablespace.Proofs.Session.Call
import Tablespace.Session.Basic

/-!
# Runs of a session

A run of a session is a list of actions (`Action`): transactions begin, fetch
pages, insert and delete rows through the catalog, scan files, and end, in any
order, and calls that were set aside are taken up again, in any order. Nothing
else is done: nobody writes pages back, throws them out, or gives up a lock on
his own.

A call is set aside when it has to wait for a lock. An insertion or a scan can
also be set aside before its first step and after any other (`Action.partly`), so
that others act between its steps.

A run leaves a history of what was answered (`Event`), of which the rows
changed are read off (`Event.change?`). All that an action can come to is
listed once (`Session.Performed`): nothing, one turn of a call, or the end of
a transaction. So every action does one of two things to the engine
(`Session.perform_spec`): it moves it on behalf of one transaction, changing
what the history says, or it ends a transaction.

A settled session (`Session.settle`) is one that calls were taken up in
(`Session.settle_eq_run`).
-/

namespace Tablespace

/-- **What is done to a session.** -/
inductive Action where
  /-- A transaction begins. -/
  | begin
  /-- A page is fetched, and kept in hand if wanted. -/
  | fetch (txn : TxnId) (page : PageId) (mode : LockMode) (keep : Bool)
  /-- A row is inserted into a table of the catalog. -/
  | insert (txn : TxnId) (table : TableId) (row : Tuple)
  /-- A row is deleted by its place. -/
  | delete (txn : TxnId) (row : Tuple)
  /-- A cursor is made over the file of a table. -/
  | scan (txn : TxnId) (table : TableId)
  /-- A method of a cursor is called. -/
  | method (cursor : Nat) (method : Method)
  /-- A transaction that is active is ended. -/
  | finish (txn : TxnId) (committed : Bool)
  /-- The engine ends a transaction, active or not. -/
  | complete (txn : TxnId) (committed : Bool)
  /-- A call that was set aside is taken up again. -/
  | resume (n : Nat)
  /-- An action is done in part: its call is set aside after so many steps. -/
  | partly (steps : Nat) (a : Action)

/-- **What is answered.** -/
inductive Event where
  /-- A call has finished. -/
  | answered (call : Call) (outcome : Except Halt Answer)
  /-- A transaction was to be ended. -/
  | ended (txn : TxnId) (committed : Bool) (outcome : Except Halt Unit)

/-- **The row that was changed**, and for whom. -/
def Event.change? : Event → Option (TxnId × Change)
  | answered call outcome => call.change? outcome
  | ended .. => none

/-- The rows that were changed, in order. -/
def Event.changes (history : List Event) : List (TxnId × Change) :=
  history.filterMap Event.change?

/-- **The rows that a transaction has changed**, in order. -/
def Event.changesOf (t : TxnId) (history : List Event) : List Change :=
  ((changes history).filter (·.1 = t)).map (·.2)

/-- **The answers of a cursor**, in order, with the methods that they answer. -/
def Event.answersOf (k : Nat) (history : List Event) : List (Method × Except Halt Answer) :=
  history.filterMap fun
    | answered (.method cursor m _) outcome => if cursor = k then some (m, outcome) else none
    | _ => none

namespace Call

/-- The cursor that a call is a method of. -/
def cursor? : Call → Option Nat
  | method cursor _ _ => some cursor
  | lock .. | fetch .. | insert .. | delete .. => none

/-- **A call that has just been made**: an insertion has counted the pages. -/
def Opens (e : Engine) : Call → Prop
  | insert _ f _ _ stage => stage = f.firstStage e
  | lock .. | fetch .. | delete .. | method .. => True

end Call

/-- The transaction that an action inserts or deletes a row for, or ends. -/
def Action.writer? : Action → Option TxnId
  | insert t .. | delete t .. | finish t _ | complete t _ => some t
  | begin | fetch .. | scan .. | method .. | resume .. => none
  | partly _ a => a.writer?

namespace Session

/-- Makes a call. -/
def make (s : Session) (c : Call) (steps : Option Nat) : List Event × Session :=
  match s.call 0 c steps with
  | (some outcome, s') => ([.answered c outcome], s')
  | (none, s') => ([], s')

/-- Makes a call that was looked at before, if it was not refused then. -/
def makeIf (s : Session) (steps : Option Nat) : Except Fault Call → List Event × Session
  | .ok c => s.make c steps
  | .error _ => ([], s)

/-- Takes up a blocked call. -/
def resume (s : Session) (n : Nat) (steps : Option Nat) : List Event × Session :=
  match s.blocked[n]? with
  | none => ([], s)
  | some b =>
    match b.call.ask s.workspace steps with
    | (.answered outcome, w) => ([.answered b.call outcome], ⟨w, s.blocked.eraseIdx n⟩)
    | (.blocked _ c, w) => ([], ⟨w, s.blocked.set n ⟨b.ticket, c⟩⟩)

/-- Whether a method of a cursor is blocked; no other is called then. -/
def usesCursor (s : Session) (k : Nat) : Bool :=
  s.blocked.any fun b => b.call.cursor? = some k

/-- **What an action does**, and what is answered. The steps of its call can be
limited. -/
def perform (s : Session) (a : Action) (steps : Option Nat := none) : List Event × Session :=
  match a with
  | .begin => ([], (s.onWorkspace (·.begin)).2)
  | .fetch t page mode keep => s.make (.fetch t page mode keep) steps
  | .insert t table row => s.makeIf steps (insertion s.engine t table row)
  | .delete t row => s.makeIf steps (deletion s.engine t row)
  | .scan t table =>
    match s.engine.catalog.file table with
    | .ok f => ([], (s.onWorkspace (·.addCursor (.file ⟨t, f⟩ none))).2)
    | .error _ => ([], s)
  | .method k m => if s.usesCursor k then ([], s) else s.make (.method k m #[]) steps
  | .finish t committed =>
    let r := s.onWorkspace fun w => if committed then w.commit t else w.abort t
    ([.ended t committed r.1], r.2)
  | .complete t committed =>
    let r := s.onWorkspace
      (Workspace.onEngine (if committed then Engine.commit t else Engine.abort t))
    ([.ended t committed r.1], r.2)
  | .resume n => s.resume n steps
  | .partly n a => s.perform a (some n)

/-- **A run**: what is answered in a series of actions, and the session after
it. -/
def run (s : Session) : List Action → List Event × Session
  | [] => ([], s)
  | a :: actions =>
    let r := s.perform a
    let rest := run r.2 actions
    (r.1 ++ rest.1, rest.2)

/-- **A session whose calls were made by actions**, over a coherent engine. -/
structure Sound (s : Session) : Prop where
  coherent : s.engine.Coherent
  files : s.workspace.OverFiles
  blocked : ∀ b ∈ s.blocked, b.call.Sound s.engine

/-! ## What an action comes to -/

/-- **The call that an action makes.** -/
structure Makes (s : Session) (a : Action) (c : Call) : Prop where
  sound : c.Sound s.engine
  opens : c.Opens s.engine
  writer : c.writer? = a.writer?
  /-- No method of a cursor is called while one is blocked. -/
  method : ∀ k m rows, c = .method k m rows → rows = #[] ∧ s.usesCursor k = false

/-- **A call that an action takes a turn of**, between blocked calls: one that
it makes, or one that is blocked. -/
inductive Turns (s : Session) (a : Action) (l r : List (Blocked Call)) (ticket : Nat) (c : Call) :
    Prop
  | made (makes : Makes s a c) (before : l = s.blocked) (last : r = [])
  | blocked (taken : s.blocked = l ++ ⟨ticket, c⟩ :: r)

/-- **What an action comes to.** -/
inductive Performed (s : Session) (a : Action) : List Event → Session → Prop
  /-- Nothing, but that cursors may have been added. -/
  | still (w : Workspace) (history : List Event) (same : w.engine = s.engine)
      (cursors : ∀ (k : Nat) (c : Cursor),
        s.workspace.cursors[k]? = some c → w.cursors[k]? = some c)
      (files : w.OverFiles) (silent : ∀ k, Event.answersOf k history = [])
      (unchanged : Event.changes history = [])
      (running : ∀ t committed, .ended t committed (.ok ()) ∉ history) :
      Performed s a history { s with workspace := w }
  /-- A call is set aside. -/
  | waits (l r : List (Blocked Call)) (ticket : Nat) (c : Call) (steps : Option Nat)
      (turns : Turns s a l r ticket c) (waits : Call.Aside (c.turn s.workspace steps).1) :
      Performed s a []
        ⟨(c.turn s.workspace steps).2.2, l ++ ⟨ticket, (c.turn s.workspace steps).2.1⟩ :: r⟩
  /-- A call is answered. -/
  | answers (l r : List (Blocked Call)) (ticket : Nat) (c : Call) (steps : Option Nat)
      (turns : Turns s a l r ticket c) (answered : ¬Call.Aside (c.turn s.workspace steps).1) :
      Performed s a [.answered c (c.turn s.workspace steps).1]
        ⟨(c.turn s.workspace steps).2.2, l ++ r⟩
  /-- A transaction ends. -/
  | ends (t : TxnId) (committed : Bool) (w : Workspace) (writer : a.writer? = some t)
      (ended : Engine.Ended t committed s.engine w.engine)
      (cursors : w.cursors = s.workspace.cursors) :
      Performed s a [.ended t committed (.ok ())] { s with workspace := w }

variable {s s' : Session} {a : Action} {c : Call} {history : List Event}
  {l r : List (Blocked Call)} {ticket : Nat} {steps : Option Nat}

/-- Asking a call once, by what its turn comes to. -/
theorem ask_cases (c : Call) (w : Workspace) (steps : Option Nat) :
    (Call.Aside (c.turn w steps).1
        ∧ ∃ moved, c.ask w steps = (.blocked moved (c.turn w steps).2.1, (c.turn w steps).2.2))
      ∨ ¬Call.Aside (c.turn w steps).1
        ∧ c.ask w steps = (.answered (c.turn w steps).1, (c.turn w steps).2.2) := by
  unfold Call.ask
  cases c.turn w steps with | mk outcome rest =>
  obtain ⟨c', w'⟩ := rest
  cases outcome with
  | ok answer =>
    refine .inr ⟨?_, rfl⟩
    rintro ⟨_, eq, -⟩
    cases eq
  | error halt =>
    dsimp only
    cases aside : halt.isAside with
    | true => exact .inl ⟨⟨halt, rfl, aside⟩, _, rfl⟩
    | false =>
      refine .inr ⟨?_, rfl⟩
      rintro ⟨_, eq, aside'⟩
      cases eq
      cases aside.symm.trans aside'

/-- What becomes of a call that was asked: it is answered, or set aside. -/
def taken (c : Call) (left : List (Blocked Call)) (waiting : Call → List (Blocked Call)) :
    Asked Call (Except Halt Answer) × Workspace → List Event × Session
  | (.answered outcome, w) => ([.answered c outcome], ⟨w, left⟩)
  | (.blocked _ c', w) => ([], ⟨w, waiting c'⟩)

theorem make_eq (s : Session) (c : Call) (steps : Option Nat) : s.make c steps
    = taken c s.blocked (fun c' => s.blocked ++ [⟨0, c'⟩]) (c.ask s.workspace steps) := by
  rw [make, call]
  rcases c.ask s.workspace steps with ⟨asked, w⟩
  cases asked <;> rfl

theorem resume_of_some {n : Nat} {b : Blocked Call} (h : s.blocked[n]? = some b) :
    s.resume n steps = taken b.call (s.blocked.eraseIdx n)
      (fun c => s.blocked.set n ⟨b.ticket, c⟩) (b.call.ask s.workspace steps) := by
  rw [resume, h]
  dsimp only
  rcases b.call.ask s.workspace steps with ⟨asked, w⟩
  cases asked <;> rfl

theorem engine_taken {left : List (Blocked Call)} {waiting : Call → List (Blocked Call)}
    (r : Asked Call (Except Halt Answer) × Workspace) :
    (taken c left waiting r).2.engine = r.2.engine := by
  obtain ⟨asked, w⟩ := r
  cases asked <;> rfl

/-- **The turn of a call** is what an action comes to. -/
theorem Turns.performed (turns : Turns s a l r ticket c) (steps : Option Nat) :
    Performed s a (taken c (l ++ r) (fun c' => l ++ ⟨ticket, c'⟩ :: r) (c.ask s.workspace steps)).1
      (taken c (l ++ r) (fun c' => l ++ ⟨ticket, c'⟩ :: r) (c.ask s.workspace steps)).2 := by
  rcases ask_cases c s.workspace steps with ⟨waits, moved, asked⟩ | ⟨answered, asked⟩ <;>
    rw [asked]
  · exact .waits l r ticket c steps turns waits
  · exact .answers l r ticket c steps turns answered

theorem performed_make (makes : Makes s a c) :
    Performed s a (s.make c steps).1 (s.make c steps).2 := by
  have turns : Turns s a s.blocked [] 0 c := .made makes rfl rfl
  have done := turns.performed steps
  rw [List.append_nil] at done
  rwa [make_eq]

/-- An action that does nothing. -/
theorem performed_still (sound : s.Sound) : Performed s a [] s :=
  .still s.workspace [] rfl (fun _ _ h => h) sound.files (fun _ => rfl) rfl (by simp)

theorem performed_makeIf (sound : s.Sound) {c : Except Fault Call}
    (makes : ∀ c', c = .ok c' → Makes s a c') :
    Performed s a (s.makeIf steps c).1 (s.makeIf steps c).2 := by
  cases c with
  | error cause => exact performed_still sound
  | ok c => exact performed_make (makes c rfl)

theorem performed_resume (sound : s.Sound) (n : Nat) :
    Performed s (.resume n) (s.resume n steps).1 (s.resume n steps).2 := by
  cases found : s.blocked[n]? with
  | none =>
    rw [resume, found]
    exact performed_still sound
  | some b =>
    obtain ⟨short, here⟩ := List.getElem?_eq_some_iff.1 found
    have split : s.blocked = s.blocked.take n ++ b :: s.blocked.drop (n + 1) := by
      rw [← here, List.getElem_cons_drop, List.take_append_drop]
    rw [resume_of_some found, List.eraseIdx_eq_take_drop_succ]
    simp only [List.set_eq_take_append_cons_drop, if_pos short]
    exact Turns.performed (.blocked split) steps

/-- An insertion that the catalog lets through is made. -/
theorem makes_insertion {t : TxnId} {table : TableId} {row : Tuple}
    (h : insertion s.engine t table row = .ok c) : Makes s (.insert t table row) c := by
  unfold insertion at h
  cases file : s.engine.catalog.file table with
  | error cause => rw [file] at h; cases h
  | ok f =>
    rw [file] at h
    cases layout : f.checkLayout row with
    | error cause => simp only [bind, Except.bind, layout] at h; cases h
    | ok _ =>
      simp only [bind, Except.bind, layout] at h
      cases h
      have table' : f.table = table := Catalog.table_of_file file
      exact
        { sound := ⟨rfl, table'.symm ▸ file, InsertionStage.known_firstStage s.engine⟩
          opens := rfl
          writer := rfl
          method := fun _ _ _ h => by cases h }

/-- A deletion that the catalog lets through is made. -/
theorem makes_deletion {t : TxnId} {row : Tuple} (h : deletion s.engine t row = .ok c) :
    Makes s (.delete t row) c := by
  unfold deletion at h
  cases place : row.record with
  | none => simp only [Tuple.place, place] at h; cases h
  | some record =>
    simp only [Tuple.place, place, bind, Except.bind] at h
    cases file : s.engine.catalog.file record.page.table with
    | error cause => rw [file] at h; cases h
    | ok f =>
      rw [file] at h
      cases check : f.checkTable record.page with
      | error cause => simp only [check] at h; cases h
      | ok _ =>
        simp only [check] at h
        cases h
        exact
          { sound := ⟨rfl, place⟩
            opens := trivial
            writer := rfl
            method := fun _ _ _ h => by cases h }

/-- The engine can always end a transaction. -/
theorem complete_engine (coherent : s.engine.Coherent) (t : TxnId) (committed : Bool) :
    ∃ e', (if committed then Engine.commit t else Engine.abort t).on s.engine = (.ok (), e')
      ∧ Engine.Ended t committed s.engine e' := by
  cases committed with
  | true => exact Engine.commit_spec coherent t
  | false => exact Engine.abort_spec coherent t

/-- A transaction that has ended already is not ended again. -/
theorem performed_refused (sound : s.Sound) {t : TxnId} {committed : Bool} {cause : Fault} :
    Performed s a [.ended t committed (.error (.fault cause))] s :=
  .still s.workspace _ rfl (fun _ _ h => h) sound.files (fun _ => rfl) rfl (by simp)

theorem performed_scan (sound : s.Sound) (t : TxnId) (table : TableId) :
    Performed s (.scan t table) (s.perform (.scan t table) steps).1
      (s.perform (.scan t table) steps).2 := by
  rw [perform]
  cases file : s.engine.catalog.file table with
  | error cause => exact performed_still sound
  | ok f =>
    refine .still (s.workspace.addCursor (.file ⟨t, f⟩ none)).2 [] rfl (fun k c h => ?_)
      (fun c hc => ?_) (fun _ => rfl) rfl (by simp)
    · show (s.workspace.cursors ++ [_])[k]? = some c
      rw [List.getElem?_append_left (List.getElem?_eq_some_iff.1 h).1, h]
    · rcases List.mem_append.1 hc with old | new
      · exact sound.files c old
      · have table' : f.table = table := Catalog.table_of_file file
        exact ⟨⟨t, f⟩, none, List.mem_singleton.1 new, table'.symm ▸ file⟩

theorem performed_complete (sound : s.Sound) (t : TxnId) (committed : Bool) :
    Performed s (.complete t committed) (s.perform (.complete t committed) steps).1
      (s.perform (.complete t committed) steps).2 := by
  obtain ⟨e', run, ended⟩ := complete_engine sound.coherent t committed
  have done : s.perform (.complete t committed) steps
      = ([.ended t committed (.ok ())], { s with workspace := s.workspace.advance e' }) := by
    rw [perform, onWorkspace, Workspace.onEngine, ← Session.engine, run]
  rw [done]
  exact .ends t committed _ rfl ended rfl

theorem performed_commit (sound : s.Sound) (t : TxnId) :
    Performed s (.finish t true) (s.perform (.finish t true) steps).1
      (s.perform (.finish t true) steps).2 := by
  obtain ⟨e', run, ended⟩ := Engine.commit_spec sound.coherent t
  rw [perform, onWorkspace]
  dsimp only
  rw [if_pos rfl, Workspace.commit]
  cases status : s.workspace.status t with
  | active =>
    dsimp only
    rw [Workspace.onEngine, ← Session.engine, run]
    exact .ends t true ((s.workspace.advance e').setStatus t .committed) rfl ended rfl
  | committed => exact performed_refused sound
  | aborted => exact performed_refused sound

theorem performed_abort (sound : s.Sound) (t : TxnId) :
    Performed s (.finish t false) (s.perform (.finish t false) steps).1
      (s.perform (.finish t false) steps).2 := by
  obtain ⟨e', run, ended⟩ := Engine.abort_spec sound.coherent t
  rw [perform, onWorkspace]
  dsimp only
  rw [if_neg Bool.false_ne_true, Workspace.abort]
  cases status : s.workspace.status t with
  | active =>
    dsimp only
    -- the status is set before the engine is asked to abort
    have same : (s.workspace.setStatus t .aborted).engine = s.engine := rfl
    rw [Workspace.onEngine, same, run]
    exact .ends t false ((s.workspace.setStatus t .aborted).advance e') rfl ended rfl
  | committed => exact performed_refused sound
  | aborted => exact performed_refused sound

/-- What an action comes to depends on whom it writes for. -/
theorem Performed.congr {b : Action} (performed : Performed s a history s')
    (writer : b.writer? = a.writer?) : Performed s b history s' := by
  have turns' {l r : List (Blocked Call)} {ticket : Nat} {c : Call}
      (turns : Turns s a l r ticket c) : Turns s b l r ticket c := by
    cases turns with
    | made makes before last =>
      exact .made { makes with writer := writer ▸ makes.writer } before last
    | blocked taken => exact .blocked taken
  cases performed with
  | still w history same cursors files silent unchanged running =>
    exact .still w history same cursors files silent unchanged running
  | waits l r ticket c steps turns waits => exact .waits l r ticket c steps (turns' turns) waits
  | answers l r ticket c steps turns answered =>
    exact .answers l r ticket c steps (turns' turns) answered
  | ends t committed w writes ended cursors =>
    exact .ends t committed w (writer.trans writes) ended cursors

/-- **What every action comes to.** -/
theorem performed (sound : s.Sound) (a : Action) (steps : Option Nat := none) :
    Performed s a (s.perform a steps).1 (s.perform a steps).2 := by
  induction a generalizing steps with
  | begin =>
    exact .still s.workspace.begin.2 [] rfl (fun _ _ h => h) sound.files (fun _ => rfl) rfl
      (by simp)
  | fetch t page mode keep =>
    exact performed_make ⟨trivial, trivial, rfl, fun _ _ _ h => by cases h⟩
  | insert t table row => exact performed_makeIf sound fun c h => makes_insertion h
  | delete t row => exact performed_makeIf sound fun c h => makes_deletion h
  | scan t table => exact performed_scan sound t table
  | method k m =>
    rw [perform]
    split
    · exact performed_still sound
    · rename_i free
      refine performed_make ⟨trivial, trivial, rfl, fun k' m' rows h => ?_⟩
      cases h
      exact ⟨rfl, by simpa using free⟩
  | complete t committed => exact performed_complete sound t committed
  | finish t committed =>
    cases committed with
    | true => exact performed_commit sound t
    | false => exact performed_abort sound t
  | resume n => exact performed_resume sound n
  | partly n a ih => exact (ih (some n)).congr rfl

/-! ## The calls that turns are taken of -/

namespace Turns

variable (turns : Turns s a l r ticket c)

include turns

theorem mem {b : Blocked Call} (h : b ∈ l ++ r) : b ∈ s.blocked := by
  cases turns with
  | made makes before last => rwa [last, List.append_nil, before] at h
  | blocked taken =>
    rw [taken]
    simp only [List.mem_append, List.mem_cons] at h ⊢
    exact h.imp_right .inr

theorem sound (sound : s.Sound) : c.Sound s.engine := by
  cases turns with
  | made makes before last => exact makes.sound
  | blocked taken =>
    have there : ⟨ticket, c⟩ ∈ s.blocked := by
      rw [taken]
      exact List.mem_append_right _ List.mem_cons_self
    exact sound.blocked _ there

/-- **What a turn of a call does.** -/
theorem turned (sound : s.Sound) (steps : Option Nat) :
    c.Turned s.workspace (c.turn s.workspace steps).1 (c.turn s.workspace steps).2.1
      (c.turn s.workspace steps).2.2 :=
  Call.turn_spec steps sound.coherent sound.files (turns.sound sound)

end Turns

/-! ## Two kinds of actions -/

/-- **What an action does to the engine.** -/
inductive Step (s : Session) (history : List Event) (s' : Session) : Prop
  /-- It moves it for one transaction, and changes what is answered. -/
  | moves (t : TxnId) (changes : List Change)
      (moves : Engine.Moves t s.engine changes s'.engine)
      (answered : Event.changes history = changes.map fun change => (t, change))
      (running : ∀ u committed, .ended u committed (.ok ()) ∉ history)
  /-- It ends a transaction. -/
  | ends (t : TxnId) (committed : Bool) (ended : Engine.Ended t committed s.engine s'.engine)
      (answered : history = [.ended t committed (.ok ())])

namespace Step

variable (step : Step s history s') (sound : s.Sound)

include step sound

theorem coherent : s'.engine.Coherent := by
  cases step with
  | moves t changes moves _ _ => exact (moves.effect sound.coherent).coherent
  | ends t committed ended _ => exact ended.coherent

theorem catalog : s'.engine.catalog = s.engine.catalog := by
  cases step with
  | moves t changes moves _ _ => exact (moves.effect sound.coherent).catalog
  | ends t committed ended _ => exact ended.catalog

/-- Files grow by whole pages, and no longer than the page count can tell. -/
theorem grown (table : TableId) (f : HeapFile) (h : s.engine.catalog.file table = .ok f) :
    f.Grown s.engine.volume s'.engine.volume := by
  cases step with
  | moves t changes moves _ _ => exact (moves.effect sound.coherent).grown table f h
  | ends t committed ended _ => exact .inl (ended.sizes table f h)

theorem overrun {p : PageId} : s.engine.Overrun p → s'.engine.Overrun p :=
  Engine.overrun_of_grown (step.catalog sound) (step.grown sound)

/-- A session stays sound if its cursors are over files, and its blocked calls
are old ones or sound. -/
theorem sound_after (files : s'.workspace.OverFiles)
    (blocked : ∀ b ∈ s'.blocked, b ∈ s.blocked ∨ b.call.Sound s'.engine) :
    s'.Sound where
  coherent := step.coherent sound
  files := files
  blocked b hb := by
    rcases blocked b hb with old | new
    · exact (sound.blocked b old).mono (step.catalog sound) (step.grown sound)
    · exact new

end Step

/-- **Whatever an action comes to**, the session stays sound, and the engine
moves or a transaction ends. -/
theorem Performed.spec (performed : Performed s a history s') (sound : s.Sound) :
    s'.Sound ∧ Step s history s' := by
  cases performed with
  | still w history same cursors files silent unchanged running =>
    have step : Step s history { s with workspace := w } := by
      refine .moves ⟨0⟩ [] ?_ unchanged running
      rw [show engine { s with workspace := w } = s.engine from same]
      exact .refl
    exact ⟨step.sound_after sound files fun b hb => .inl hb, step⟩
  | waits l r ticket c steps turns waits =>
    have turned := turns.turned sound steps
    obtain ⟨t, changes, moves, answered, -⟩ := turned.moves
    obtain ⟨halt, waits, -⟩ := waits
    -- a call that is set aside has changed nothing yet
    have none : c.change? (.error halt) = none := by cases c <;> rfl
    rw [waits, none] at answered
    have step : Step s []
        ⟨(c.turn s.workspace steps).2.2, l ++ ⟨ticket, (c.turn s.workspace steps).2.1⟩ :: r⟩ :=
      .moves t changes moves answered (by simp)
    refine ⟨step.sound_after sound turned.files fun b hb => ?_, step⟩
    simp only [List.mem_append, List.mem_cons] at hb
    rcases hb with old | rfl | old
    · exact .inl (turns.mem (List.mem_append_left _ old))
    · exact .inr (turned.sound halt waits)
    · exact .inl (turns.mem (List.mem_append_right _ old))
  | answers l r ticket c steps turns answered =>
    have turned := turns.turned sound steps
    obtain ⟨t, changes, moves, same, -⟩ := turned.moves
    have step : Step s [.answered c (c.turn s.workspace steps).1]
        ⟨(c.turn s.workspace steps).2.2, l ++ r⟩ := by
      refine .moves t changes moves (Eq.trans ?_ same) (by simp)
      rw [Event.changes, List.filterMap_cons, Event.change?]
      cases c.change? (c.turn s.workspace steps).1 <;> rfl
    exact ⟨step.sound_after sound turned.files fun b hb => .inl (turns.mem hb), step⟩
  | ends t committed w writer ended cursors =>
    have step : Step s [.ended t committed (.ok ())] { s with workspace := w } :=
      .ends t committed ended rfl
    refine ⟨step.sound_after sound (fun c hc => ?_) fun b hb => .inl hb, step⟩
    obtain ⟨scan, state, rfl, file⟩ := sound.files c (cursors ▸ hc)
    exact ⟨scan, state, rfl, by rw [ended.catalog]; exact file⟩

/-- **What every action does**: the session stays sound, and the engine moves
or a transaction ends. -/
theorem perform_spec (sound : s.Sound) (a : Action) :
    (s.perform a).2.Sound ∧ Step s (s.perform a).1 (s.perform a).2 :=
  (performed sound a).spec sound

/-! ## Every run -/

/-- **What every action preserves holds after every run.** -/
theorem run_induction {P : List Event → Session → Prop} (sound : s.Sound) (start : P [] s)
    (step : ∀ history (s : Session) (a : Action), s.Sound → P history s →
      P (history ++ (s.perform a).1) (s.perform a).2) (actions : List Action) :
    P (s.run actions).1 (s.run actions).2 := by
  have go (history : List Event) (s : Session) (sound : s.Sound) (h : P history s) :
      P (history ++ (s.run actions).1) (s.run actions).2 := by
    induction actions generalizing history s with
    | nil => rwa [run, List.append_nil]
    | cons a actions ih =>
      rw [run, ← List.append_assoc]
      exact ih _ _ (perform_spec sound a).1 (step history s a sound h)
  simpa using go [] s sound start

theorem run_append (s : Session) (actions more : List Action) :
    s.run (actions ++ more)
      = ((s.run actions).1 ++ ((s.run actions).2.run more).1, ((s.run actions).2.run more).2) := by
  induction actions generalizing s with
  | nil => rfl
  | cons a actions ih =>
    rw [List.cons_append, run, run, ih, List.append_assoc]

/-- Every session of a run is sound. -/
theorem Sound.run (sound : s.Sound) (actions : List Action) : (s.run actions).2.Sound :=
  run_induction (P := fun _ s => s.Sound) sound sound
    (fun _ _ a sound _ => (perform_spec sound a).1) actions

/-- No action changes the catalog. -/
theorem run_catalog (sound : s.Sound) (actions : List Action) :
    (s.run actions).2.engine.catalog = s.engine.catalog :=
  run_induction (P := fun _ s' => s'.engine.catalog = s.engine.catalog) sound rfl
    (fun _ _ a sound same => ((perform_spec sound a).2.catalog sound).trans same) actions

/-- A page that is overrun stays so. -/
theorem overrun_run (sound : s.Sound) (actions : List Action) {p : PageId}
    (hit : s.engine.Overrun p) : (s.run actions).2.engine.Overrun p :=
  run_induction (P := fun _ s' => s'.engine.Overrun p) sound hit
    (fun _ _ a sound hit => (perform_spec sound a).2.overrun sound hit) actions

/-- **A session that starts with an engine that nobody has used is sound.** -/
theorem sound_ofEngine {c : Config} {volume : Volume} {catalog : Catalog} {e : Engine}
    (apart : catalog.Apart) (h : Engine.start c volume catalog = .ok e) : (ofEngine e).Sound where
  coherent := Engine.coherent_of_start apart h
  files _ hc := absurd hc List.not_mem_nil
  blocked _ hb := absurd hb List.not_mem_nil

/-- **A session that actions have led to**, from an engine that nobody had
used, over tables with files of their own. -/
def Reachable (s : Session) : Prop :=
  ∃ c volume catalog e actions, catalog.Apart ∧ Engine.start c volume catalog = .ok e
    ∧ s = ((ofEngine e).run actions).2

/-- A session that actions have led to is sound. -/
theorem Reachable.sound (reachable : s.Reachable) : s.Sound := by
  obtain ⟨c, volume, catalog, e, actions, apart, start, rfl⟩ := reachable
  exact (sound_ofEngine apart start).run actions

/-! ## Settling -/

/-- A round of blocked calls takes up each of them. -/
theorem round_eq_run (w : Workspace) (waiting blocked : List (Blocked Call)) :
    ∃ actions, (∀ a ∈ actions, ∃ n, a = .resume n)
      ∧ (run ⟨w, waiting ++ blocked⟩ actions).2
        = ⟨(Blocked.round (Call.ask · ·) blocked w).state,
          waiting ++ (Blocked.round (Call.ask · ·) blocked w).blocked⟩ := by
  induction blocked generalizing w waiting with
  | nil => exact ⟨[], by simp, rfl⟩
  | cons b blocked ih =>
    -- those that still wait stand before the one that is taken up next
    have found : (waiting ++ b :: blocked)[waiting.length]? = some b := by simp
    cases asked : b.call.ask w with | mk outcome w' =>
    cases outcome with
    | answered answer =>
      obtain ⟨actions, resumes, rest⟩ := ih w' waiting
      refine ⟨.resume waiting.length :: actions, by simpa using resumes, ?_⟩
      have done : perform ⟨w, waiting ++ b :: blocked⟩ (.resume waiting.length)
          = ([.answered b.call answer], ⟨w', waiting ++ blocked⟩) := by
        rw [perform, resume, found]
        dsimp only
        rw [asked]
        simp [List.eraseIdx_append_of_length_le]
      rw [run, done, Blocked.round, asked]
      exact rest
    | blocked moved c =>
      obtain ⟨actions, resumes, rest⟩ := ih w' (waiting ++ [⟨b.ticket, c⟩])
      refine ⟨.resume waiting.length :: actions, by simpa using resumes, ?_⟩
      have done : perform ⟨w, waiting ++ b :: blocked⟩ (.resume waiting.length)
          = ([], ⟨w', (waiting ++ [⟨b.ticket, c⟩]) ++ blocked⟩) := by
        rw [perform, resume, found]
        dsimp only
        rw [asked]
        simp
      rw [run, done, Blocked.round, asked]
      simpa using rest

/-- **To settle a session is to take up blocked calls.** -/
theorem settle_eq_run (s : Session) :
    ∃ actions, (∀ a ∈ actions, ∃ n, a = .resume n) ∧ (s.run actions).2 = s.settle.2 := by
  have go (rounds : Nat) (w : Workspace) (blocked : List (Blocked Call)) :
      ∃ actions, (∀ a ∈ actions, ∃ n, a = .resume n) ∧ (run ⟨w, blocked⟩ actions).2
        = ⟨(Blocked.settle (Call.ask · ·) rounds blocked w).state,
          (Blocked.settle (Call.ask · ·) rounds blocked w).blocked⟩ := by
    induction rounds generalizing w blocked with
    | zero => exact ⟨[], by simp, rfl⟩
    | succ rounds ih =>
      obtain ⟨first, resumes, done⟩ := round_eq_run w [] blocked
      rw [List.nil_append, List.nil_append] at done
      rw [Blocked.settle]
      dsimp only
      split
      · obtain ⟨rest, resumes', done'⟩ := ih (Blocked.round (Call.ask · ·) blocked w).state
          (Blocked.round (Call.ask · ·) blocked w).blocked
        refine ⟨first ++ rest, ?_, ?_⟩
        · intro a ha
          exact (List.mem_append.1 ha).elim (resumes a) (resumes' a)
        · rw [run_append, done]
          exact done'
      · exact ⟨first, resumes, done⟩
  exact go s.rounds s.workspace s.blocked

end Session

/-! ## A small engine -/

/-- **A file of numbers**, whose pages have room for two. -/
def HeapFile.numbers : HeapFile :=
  ⟨⟨1⟩, ⟨[⟨"n", .integer⟩]⟩, ["numbers"], 9, by decide, by decide⟩

/-- The content of a file of one page, with a 7 in its first slot. -/
def FileImage.seven : FileImage :=
  .ofImage #[1, 7, 0, 0, 0, 0, 0, 0, 0]

/-- A row of the file, and its place. -/
def Tuple.number (n : Int32) (record : Option RecordId) : Tuple :=
  ⟨HeapFile.numbers.schema, [.int n], record, rfl⟩

/-- The row of the page with a 7. -/
def Tuple.seven : Tuple :=
  .number 7 (some ⟨⟨⟨1⟩, 0⟩, 0⟩)

namespace Engine

/-- **An engine that nobody has used**, over a file of numbers and with room
for one page in its cache. -/
def numbers (content : FileImage) : Engine :=
  ⟨⟨[], [(["numbers"], content)]⟩, ⟨[⟨"numbers", .numbers⟩], ⟨[("numbers", ⟨1⟩)]⟩⟩, .empty, .empty,
    0, 1⟩

variable (content : FileImage)

theorem apart_numbers : (numbers content).catalog.Apart :=
  Catalog.apart_of_nodup (List.nodup_singleton _)

variable {content} in
theorem whole_numbers (h : 9 ∣ content.size) (table : TableId) (f : HeapFile)
    (file : (numbers content).catalog.file table = .ok f) : f.Whole (numbers content).volume := by
  obtain ⟨entry, there, -, rfl⟩ := Catalog.mem_of_file file
  rw [List.mem_singleton.1 there]
  exact h

theorem start_numbers :
    start ⟨9, 1, 1⟩ (numbers content).volume (numbers content).catalog = .ok (numbers content) :=
  rfl

end Engine

namespace Session

/-- **What actions lead to** over a file of numbers. -/
def ofNumbers (content : FileImage) (actions : List Action) : Session :=
  ((ofEngine (.numbers content)).run actions).2

theorem reachable_numbers (content : FileImage) (actions : List Action) :
    (ofNumbers content actions).Reachable :=
  ⟨_, _, _, _, actions, Engine.apart_numbers _, Engine.start_numbers _, rfl⟩

end Session

end Tablespace
