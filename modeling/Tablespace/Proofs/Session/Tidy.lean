import Tablespace.Proofs.Pool.Tidy
import Tablespace.Proofs.Session.Run

/-!
# The cache stays tidy

Whatever is done in a session, its cache keeps to its capacity and agrees with
the files byte by byte, as long as only rows are inserted that fit their
columns (`Session.run_pooled`).

An insertion goes through pages that it fetches, and leaves the page in which
it has stored its row unmarked (`Engine.Changed`); the mark that follows cannot
fail, for the page is still there.
-/

namespace Tablespace

/-! ## Insertion -/

namespace Engine

variable {e e' : Engine} {t : TxnId} {p : PageId} {f : HeapFile} {row : Tuple} {room : Nat}

/-- **Trying a page** leaves it unmarked, or a tidy cache. -/
theorem Tidy.tryInsert (tidy : e.Tidy room) (coherent : e.Coherent) (conforms : row.Conforms)
    (t : TxnId) (p : PageId) : Changed room (Option.map Prod.snd) ((tryInsert t row p).on e) := by
  have fetched' := tidy.fetch t p .exclusive
  rw [on_tryInsert]
  cases fetched : (Engine.fetch t p .exclusive).on e with | mk outcome e₁ =>
  rw [fetched] at fetched'
  cases outcome with
  | error halt => exact fetched'
  | ok d =>
    obtain ⟨looks, -, -, frame, there, rfl⟩ := fetch_ok coherent fetched
    have id := (looks.moves.effect coherent).coherent.id_of_frame there
    dsimp only
    split
    · cases inserted : frame.page.insert row with | mk result q =>
      cases result with
      | error cause =>
        obtain rfl := Page.eq_of_insert_error conforms inserted
        exact fetched'.alter (id ▸ there) rfl
      | ok stored =>
        obtain ⟨slot, -, -, -, same, -⟩ := Page.insert_ok inserted
        exact ⟨e₁, frame, fetched', (same.id.trans id).symm ▸ there, rfl⟩
    · show (e₁.giveBack t p (e.locks.mode? t p)).Tidy room
      unfold giveBack
      split
      · exact fetched'.relock _
      · exact fetched'.relock _
      · exact fetched'

/-- **Appending a page** leaves a tidy cache tidy. -/
theorem Tidy.append (tidy : e.Tidy room) (coherent : e.Coherent)
    (file : e.catalog.file f.table = .ok f)
    (next : (f.pageCount e.volume).toNat ≤ f.pages e.volume) :
    Tidy { e with volume := (f.appendPage e.volume).2 } room where
  capacity := tidy.capacity
  within := tidy.within
  exact p frame there clean intact := by
    rw [coherent.readPage_append file next]
    split
    · -- a new page is not in the cache yet
      rename_i same
      obtain ⟨cause, missing⟩ := coherent.fresh_of_append file next same intact
      obtain ⟨d, read, -⟩ := coherent.cached p frame there
      rw [missing] at read
      cases read
    · exact tidy.exact p frame there clean fun hit =>
        intact (coherent.overrun_append file next hit)

end Engine

namespace HeapFile

open Engine (Tidy Changed)

variable {f : HeapFile} {e : Engine} {t : TxnId} {row : Tuple} {steps room : Nat}

/-- The outcome of an insertion and the engine after it. -/
def engineOf {α : Type} (r : Except Halt α × InsertionStage × Engine) : Except Halt α × Engine :=
  (r.1, r.2.2)

variable (t steps) in
/-- **An insertion** leaves a page unmarked, or a tidy cache. -/
theorem changed_insertFrom (tidy : e.Tidy room) (coherent : e.Coherent)
    (file : e.catalog.file f.table = .ok f) (conforms : row.Conforms) {stage : InsertionStage}
    (known : stage.Known f e.volume) :
    Changed room (fun r => some r.2) (engineOf ((f.insertFrom t row steps).on (stage, e))) := by
  refine insertFrom_induction (P := fun r => Changed room (fun r => some r.2) (engineOf r))
    (I := fun _ s => s.2.Tidy room ∧ f.Underway t e s) (fun s underway => underway.1)
    (fun _ stage e' ⟨tidy, underway⟩ => ?_) ⟨tidy, .refl, known⟩
  have effect := underway.1.moves.effect coherent
  have file := effect.catalog ▸ file
  have onwards := insertStep_spec t row underway.1 effect.coherent file underway.2
  refine onwards.and (leads_insertStep (fun page full _ => ?_) (fun next limit at_ last => ?_)
    fun _ _ => tidy)
  · have tried := tidy.tryInsert effect.coherent conforms t ⟨f.table, page⟩
    generalize (Engine.tryInsert t row ⟨f.table, page⟩).on e' = r at tried ⊢
    obtain ⟨outcome, e''⟩ := r
    cases outcome with
    | error halt => exact tried
    | ok stored => cases stored <;> exact tried
  · have known : (InsertionStage.scanning next limit).Known f e'.volume := at_ ▸ underway.2
    exact tidy.append effect.coherent file (known.leaves_no_gap last)

end HeapFile

/-! ## Calls -/

namespace Call

variable {e : Engine} {t : TxnId} {f : HeapFile} {row : Tuple} {w : Workspace} {c : Call}
  {room : Nat} {steps : Option Nat}

/-- **An insertion with its mark** leaves a tidy cache. -/
theorem tidy_insertRow (tidy : e.Tidy room) (coherent : e.Coherent)
    (file : e.catalog.file f.table = .ok f) (conforms : row.Conforms) (t : TxnId)
    {stage : InsertionStage} (known : stage.Known f e.volume) :
    ((insertRow t f row true steps).on (stage, e)).2.2.Tidy room := by
  have changed := HeapFile.changed_insertFrom t (steps.getD (f.insertionFuel (stage, e))) tidy
    coherent file conforms known
  rw [← HeapFile.on_insert] at changed
  rw [on_insertRow]
  generalize (f.insert t row steps).on (stage, e) = r at changed ⊢
  obtain ⟨outcome, state⟩ := r
  cases outcome with
  | error halt => exact changed
  | ok result => exact Engine.Unmarked.install changed t

/-- **A deletion with its mark** leaves a tidy cache. -/
theorem tidy_deleteRow (tidy : e.Tidy room) (coherent : e.Coherent) (t : TxnId) (row : Tuple)
    (record : RecordId) : ((deleteRow t row record true).on e).2.Tidy room := by
  have changed := tidy.deleteAt coherent t row record
  rw [on_deleteRow]
  generalize (Engine.deleteAt t row record).on e = r at changed ⊢
  obtain ⟨outcome, e₁⟩ := r
  cases outcome with
  | error halt => exact changed
  | ok q => exact Engine.Unmarked.install changed t

/-- **A call that inserts no row but such that fits its columns.** -/
def Conforms : Call → Prop
  | insert _ _ row _ _ => row.Conforms
  | lock .. | fetch .. | delete .. | method .. => True

variable (steps) in
/-- **A turn of a call** leaves a tidy cache. -/
theorem tidy_turn (tidy : w.engine.Tidy room) (coherent : w.engine.Coherent) (files : w.OverFiles)
    (sound : c.Sound w.engine) (conforms : c.Conforms) :
    (c.turn w steps).2.2.engine.Tidy room := by
  cases c with
  | lock t page mode => exact tidy.relock _
  | fetch t page mode keep =>
    show (fetchPage t page mode keep w).2.engine.Tidy room
    rw [(fetchPage_spec t page mode keep w).1]
    exact tidy.fetch t page mode
  | insert t f row mark stage =>
    obtain ⟨rfl, file, known⟩ := sound
    exact tidy_insertRow tidy coherent file conforms t known
  | delete t row record mark =>
    obtain ⟨rfl, -⟩ := sound
    exact tidy_deleteRow tidy coherent t row record
  | method k m collected =>
    cases found : w.cursors[k]? with
    | none =>
      rw [turn_method_of_none found]
      exact tidy
    | some cursor =>
      obtain ⟨scan, state, rfl, -⟩ := cursor_of_overFiles files found
      have closed : Engine.FetchClosed scan.txn fun e e' => e.Tidy room → e'.Tidy room :=
        ⟨fun _ => id, fun _ _ _ first second h => second (first h),
          fun p mode _ h => h.fetch scan.txn p mode⟩
      rw [turn_method_of_some found]
      exact Cursor.run_closed closed tidy

/-- A call inserts the same row when it is taken up again. -/
theorem Conforms.resumes {c' : Call} (conforms : c.Conforms) (resumes : c.Resumes c') :
    c'.Conforms := by
  cases c with
  | insert t f row mark stage =>
    cases c' with
    | insert t' f' row' mark' stage' =>
      obtain ⟨-, -, rfl, -⟩ := resumes
      exact conforms
    | lock | fetch | delete | method => trivial
  | lock | fetch | delete =>
    cases c' with
    | insert => cases resumes
    | lock | fetch | delete | method => trivial
  | method k m collected =>
    cases c' with
    | insert => cases resumes
    | lock | fetch | delete | method => trivial

end Call

/-! ## Runs -/

/-- An action that inserts no row but such that fits its columns. -/
def Action.Conforms : Action → Prop
  | insert _ _ row => row.Conforms
  | begin | fetch .. | delete .. | scan .. | method .. | finish .. | complete .. | resume .. => True
  | partly _ a => a.Conforms

namespace Session

variable {s : Session} {a : Action} {c : Call} {room : Nat} {steps : Option Nat}

/-- **A session with a tidy cache**, in which no call inserts a row that does not
fit its columns. -/
structure Upkept (s : Session) (room : Nat) : Prop where
  tidy : s.engine.Tidy room
  conforms : ∀ b ∈ s.blocked, b.call.Conforms

/-- A call that was asked leaves the session upkept, wherever it is kept among
the blocked ones. -/
theorem Upkept.taken (upkept : s.Upkept room) (sound : s.Sound) (callSound : c.Sound s.engine)
    (conforms : c.Conforms) {left : List (Blocked Call)} {waiting : Call → List (Blocked Call)}
    (others : ∀ b ∈ left, b ∈ s.blocked)
    (blocked : ∀ c', ∀ b ∈ waiting c', b ∈ s.blocked ∨ b.call = c') :
    (taken c left waiting (c.ask s.workspace steps)).2.Upkept room := by
  have tidy := Call.tidy_turn steps upkept.tidy sound.coherent sound.files callSound conforms
  have resumes := (Call.turn_spec steps sound.coherent sound.files callSound).resumes
  rcases ask_cases c s.workspace steps with ⟨waits, moved, asked⟩ | ⟨answered, asked⟩ <;> rw [asked]
  · refine ⟨tidy, fun b hb => ?_⟩
    rcases blocked _ b hb with old | new
    · exact upkept.conforms b old
    · exact new ▸ conforms.resumes resumes
  · exact ⟨tidy, fun b hb => upkept.conforms b (others b hb)⟩

theorem Upkept.make (upkept : s.Upkept room) (sound : s.Sound) (callSound : c.Sound s.engine)
    (conforms : c.Conforms) : (s.make c steps).2.Upkept room := by
  rw [make_eq]
  refine upkept.taken sound callSound conforms (fun _ => id) fun c' b hb => ?_
  exact (List.mem_append.1 hb).imp_right fun new => congrArg Blocked.call (List.mem_singleton.1 new)

theorem Upkept.makeIf (upkept : s.Upkept room) (sound : s.Sound) {c : Except Fault Call}
    (made : ∀ c', c = .ok c' → c'.Sound s.engine ∧ c'.Conforms) :
    (s.makeIf steps c).2.Upkept room := by
  cases c with
  | error cause => exact upkept
  | ok c => exact upkept.make sound (made c rfl).1 (made c rfl).2

theorem Upkept.resume (upkept : s.Upkept room) (sound : s.Sound) (n : Nat) :
    (s.resume n steps).2.Upkept room := by
  cases found : s.blocked[n]? with
  | none =>
    rw [Session.resume, found]
    exact upkept
  | some b =>
    have there := List.mem_of_getElem? found
    rw [resume_of_some found]
    refine upkept.taken sound (sound.blocked b there) (upkept.conforms b there)
      (fun _ => List.mem_of_mem_eraseIdx) fun c' b' hb => ?_
    exact (List.mem_or_eq_of_mem_set hb).imp_right (congrArg Blocked.call)

/-- An insertion inserts the row that it is asked to insert. -/
theorem conforms_insertion {e : Engine} {t : TxnId} {table : TableId} {row : Tuple}
    (conforms : row.Conforms) (h : insertion e t table row = .ok c) : c.Conforms := by
  unfold insertion at h
  cases file : e.catalog.file table with
  | error cause => rw [file] at h; cases h
  | ok f =>
    cases layout : f.checkLayout row with
    | error cause => simp only [file, bind, Except.bind, layout] at h; cases h
    | ok _ =>
      simp only [file, bind, Except.bind, layout] at h
      cases h
      exact conforms

/-- A deletion inserts nothing. -/
theorem conforms_deletion {e : Engine} {t : TxnId} {row : Tuple}
    (h : deletion e t row = .ok c) : c.Conforms := by
  unfold deletion at h
  cases place : row.place with
  | error cause => rw [place] at h; cases h
  | ok record =>
    cases file : e.catalog.file record.page.table with
    | error cause => simp only [place, bind, Except.bind, file] at h; cases h
    | ok f =>
      cases check : f.checkTable record.page with
      | error cause => simp only [place, bind, Except.bind, file, check] at h; cases h
      | ok _ =>
        simp only [place, bind, Except.bind, file, check] at h
        cases h
        trivial

/-- Ending a transaction through its workspace ends it in the engine, if it was
active, and else does nothing there. -/
theorem engine_finish (w : Workspace) (t : TxnId) (committed : Bool) :
    (if committed then w.commit t else w.abort t).2.engine = w.engine
      ∨ (if committed then w.commit t else w.abort t).2.engine
        = ((if committed then Engine.commit t else Engine.abort t).on w.engine).2 := by
  cases committed with
  | true =>
    rw [if_pos rfl, if_pos rfl, Workspace.commit]
    cases w.status t with
    | active =>
      refine .inr ?_
      dsimp only
      rw [Workspace.onEngine]
      rcases (Engine.commit t).on w.engine with ⟨outcome | outcome, e⟩
      · cases outcome <;> rfl
      · rfl
    | committed => exact .inl rfl
    | aborted => exact .inl rfl
  | false =>
    rw [if_neg Bool.false_ne_true, if_neg Bool.false_ne_true, Workspace.abort]
    cases w.status t with
    | active => exact .inr rfl
    | committed => exact .inl rfl
    | aborted => exact .inl rfl

/-- **Every action keeps the cache tidy.** -/
theorem Upkept.perform (upkept : s.Upkept room) (sound : s.Sound) (conforms : a.Conforms)
    (steps : Option Nat := none) : (s.perform a steps).2.Upkept room := by
  induction a generalizing steps with
  | begin => exact ⟨upkept.tidy, upkept.conforms⟩
  | fetch t page mode keep => exact upkept.make sound trivial trivial
  | insert t table row =>
    exact upkept.makeIf sound fun c h =>
      ⟨(makes_insertion h).sound, conforms_insertion conforms h⟩
  | delete t row =>
    exact upkept.makeIf sound fun c h => ⟨(makes_deletion h).sound, conforms_deletion h⟩
  | scan t table =>
    rw [Session.perform]
    split
    · exact ⟨upkept.tidy, upkept.conforms⟩
    · exact upkept
  | method k m =>
    rw [Session.perform]
    split
    · exact upkept
    · exact upkept.make sound trivial trivial
  | finish t committed =>
    refine ⟨?_, upkept.conforms⟩
    have ended := upkept.tidy.complete sound.coherent t committed
    show Engine.Tidy (if committed then s.workspace.commit t else s.workspace.abort t).2.engine room
    rcases engine_finish s.workspace t committed with same | engine
    · exact same.symm ▸ upkept.tidy
    · exact engine.symm ▸ ended
  | complete t committed =>
    exact ⟨upkept.tidy.complete sound.coherent t committed, upkept.conforms⟩
  | resume n => exact upkept.resume sound n
  | partly n a ih => exact ih conforms (some n)

/-- **Every run keeps the cache tidy.** -/
theorem Upkept.run (upkept : s.Upkept room) (sound : s.Sound) {actions : List Action}
    (conforms : ∀ a ∈ actions, a.Conforms) : (s.run actions).2.Upkept room := by
  induction actions generalizing s with
  | nil => exact upkept
  | cons a actions ih =>
    rw [Session.run]
    exact ih (upkept.perform sound (conforms a List.mem_cons_self)) (perform_spec sound a).1
      fun b hb => conforms b (List.mem_cons_of_mem _ hb)

/-! ## What the cache of a session is like -/

/-- **A session whose cache is what it should be.** -/
structure Pooled (s : Session) (room : Nat) : Prop where
  /-- The cache holds no more pages than there is room for, -/
  within : s.engine.cache.size ≤ room
  /-- each of them once, -/
  once : s.engine.cache.pages.Nodup
  /-- and under its own name. -/
  named : ∀ p frame, s.engine.frame? p = some frame → frame.page.id = p
  /-- Whoever has changed a page holds it exclusive. -/
  owned : ∀ t p, s.engine.DirtyFor t p → s.engine.locks.mode? t p = some .exclusive
  /-- A clean page is the page of its file, byte for byte, unless the next
  append to the file is written over it; -/
  exact : ∀ p frame, s.engine.frame? p = some frame → frame.page.dirtier = none →
    ¬s.engine.Overrun p → s.engine.readPage p = .ok frame.page
  /-- that append erases the page in the file. -/
  erased : ∀ p f, s.engine.catalog.file p.table = .ok f → s.engine.Overrun p →
    f.Erases s.engine p
  /-- From wherever a call has come to, a page that is fetched and is not in a
  full cache takes the place of the oldest clean page, if there is one. -/
  missed : ∀ (e : Engine) t p mode, (e.locks.request t p mode).1 = .granted →
    e.frame? p = none → e.capacity ≤ e.cache.size →
    e.Missed p ((Engine.fetch t p mode).on e).1 ((Engine.fetch t p mode).on e).2
  /-- The page of a row that was inserted, by a new call or by one that was
  blocked, can be marked, -/
  inserted : ∀ t f row stage steps stored q state, s.engine.catalog.file f.table = .ok f →
    row.Conforms →
    stage = f.firstStage s.engine
      ∨ (∃ b ∈ s.blocked, ∃ mark, b.call = .insert t f row mark stage) →
    (f.insert t row steps).on (stage, s.engine) = (.ok (stored, q), state) →
    ((Engine.install t q).on state.2).1 = .ok ()
  /-- and so can the page of a row that was deleted. -/
  deleted : ∀ t row record q e, (Engine.deleteAt t row record).on s.engine = (.ok q, e) →
    ((Engine.install t q).on e).1 = .ok ()

/-- **The cache of a session is what it should be** if it is tidy. -/
theorem Upkept.pooled (upkept : s.Upkept room) (sound : s.Sound) : s.Pooled room where
  within := upkept.tidy.within
  once := s.engine.cache.nodup
  named _ _ there := sound.coherent.id_of_frame there
  owned := sound.coherent.owned
  exact := upkept.tidy.exact
  erased _ _ file hit := hit.erases file
  missed _ _ _ _ granted absent full := Engine.missed_fetch granted absent full
  inserted t f row stage steps stored q state file conforms made run := by
    have known : stage.Known f s.engine.volume := by
      rcases made with rfl | ⟨b, blocked, mark, call⟩
      · exact InsertionStage.known_firstStage s.engine
      · have callSound := sound.blocked b blocked
        rw [call] at callSound
        exact callSound.2.2
    have changed := HeapFile.changed_insertFrom t
      (steps.getD (f.insertionFuel (stage, s.engine))) upkept.tidy sound.coherent file conforms known
    rw [← HeapFile.on_insert, run] at changed
    exact Engine.Unmarked.on_install changed t
  deleted t row record q e run := by
    have changed := upkept.tidy.deleteAt sound.coherent t row record
    rw [run] at changed
    exact Engine.Unmarked.on_install changed t

/-- **The cache of a session is what it should be** after every run in which
only rows are inserted that fit their columns. -/
theorem run_pooled {config : Config} {volume : Volume} {catalog : Catalog} {e : Engine}
    (apart : catalog.Apart) (start : Engine.start config volume catalog = .ok e)
    {actions : List Action}
    (conforms : ∀ a ∈ actions, a.Conforms) :
    ((ofEngine e).run actions).2.Pooled config.capacity := by
  have sound := sound_ofEngine apart start
  have upkept : (ofEngine e).Upkept config.capacity :=
    ⟨Engine.tidy_of_start start, fun b hb => absurd hb List.not_mem_nil⟩
  exact (upkept.run sound conforms).pooled (sound.run actions)

/-- A row is inserted into a cache with room for one page. The page is dirty
then, and there is no room for another one. -/
theorem run_pooled_numbers :
    (ofNumbers .seven [.insert ⟨1⟩ ⟨1⟩ (.number 8 none)]).Pooled 1
      ∧ (ofNumbers .seven [.insert ⟨1⟩ ⟨1⟩ (.number 8 none)]).engine.DirtyFor ⟨1⟩ ⟨⟨1⟩, 0⟩ := by
  have made : Tuple.ofValues HeapFile.numbers.schema [.int 8] = .ok (.number 8 none) := rfl
  have conforms := Tuple.conforms_of_ofValues made
  refine ⟨run_pooled (Engine.apart_numbers .seven) (Engine.start_numbers .seven)
    (by simpa [Action.Conforms] using conforms), ?_⟩
  exact Engine.mem_pagesWith_dirtyFor.1 (by decide +kernel)

/-- A page that was changed is not thrown out. -/
example :
    ((Engine.fetch ⟨1⟩ ⟨⟨1⟩, 1⟩ .shared).on
      (ofNumbers .seven [.insert ⟨1⟩ ⟨1⟩ (.number 8 none)]).engine).1
      = .error (.fault .poolFull) := by
  rfl

end Session

end Tablespace
