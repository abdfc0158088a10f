import Tablespace.Proofs.Session.Agreement
import Tablespace.Proofs.Session.Run

/-!
# The cache does not show

Two sessions that do the same over the same files, with room for different
numbers of pages in their caches, cannot be told apart by what they answer
(`Session.run_transparent`): call by call both answer the same or wait, and all the
while they agree on the locks, on the files, and on what a fetch of any page
would show. They differ in the clean pages that are at hand.

This is so unless one of them wants for room for a page – which nobody but the
smaller cache is to blame for –, and as long as no file comes to `2 ^ 32`
pages.
-/

namespace Tablespace

/-! ## Asking a call -/

namespace Call

open Engine (Paired)

variable {w₁ w₂ : Workspace} {c : Call} {steps : Option Nat}

/-- **A call that is asked in two workspaces comes to the same**, unless there
was no room in one of them. -/
inductive MatchedAsk : Asked Call (Except Halt Answer) × Workspace →
    Asked Call (Except Halt Answer) × Workspace → Prop
  | noRoomLeft {w : Workspace} {r : Asked Call (Except Halt Answer) × Workspace} :
    MatchedAsk (.answered (.error (.fault .poolFull)), w) r
  | noRoomRight {r : Asked Call (Except Halt Answer) × Workspace} {w : Workspace} :
    MatchedAsk r (.answered (.error (.fault .poolFull)), w)
  | waits {moved moved' : Bool} {c : Call} {w w' : Workspace} (agree : w.Agree w') :
    MatchedAsk (.blocked moved c, w) (.blocked moved' c, w')
  | answers {outcome outcome' : Except Halt Answer} {w w' : Workspace}
    (same : SameOutcome Answer.Same outcome outcome') (agree : w.Agree w') :
    MatchedAsk (.answered outcome, w) (.answered outcome', w')

theorem snd_ask (c : Call) (w : Workspace) (steps : Option Nat) :
    (c.ask w steps).2 = (c.turn w steps).2.2 := by
  rcases Session.ask_cases c w steps with ⟨-, moved, asked⟩ | ⟨-, asked⟩ <;> rw [asked]

theorem matched_ask (agree : w₁.Agree w₂) (paired : Paired w₁.engine w₂.engine)
    (files : w₁.OverFiles) (sound : c.Sound w₁.engine)
    (intact : (c.ask w₁ steps).2.engine.Intact) :
    MatchedAsk (c.ask w₁ steps) (c.ask w₂ steps) := by
  rw [snd_ask] at intact
  have turned := matched_turn agree paired files sound intact
  unfold ask
  generalize c.turn w₁ steps = r₁ at turned ⊢
  generalize c.turn w₂ steps = r₂ at turned ⊢
  cases turned with
  | noRoomLeft => exact .noRoomLeft
  | noRoomRight => exact .noRoomRight
  | @halts s s' halt same =>
    obtain ⟨call, workspaces⟩ := same
    dsimp only
    cases halt.isAside with
    | true =>
      rw [call]
      exact .waits workspaces
    | false => exact .answers rfl workspaces
  | answers same states => exact .answers same states.workspaces

end Call

/-! ## Sessions that agree -/

/-- **An event that tells of a want of room.** -/
def Event.NoRoom : Event → Prop
  | answered _ (.error halt) | ended _ _ (.error halt) => halt = .fault .poolFull
  | answered _ (.ok _) | ended _ _ (.ok _) => False

instance : DecidablePred Event.NoRoom
  | .answered _ (.error halt) | .ended _ _ (.error halt) =>
    inferInstanceAs (Decidable (halt = .fault .poolFull))
  | .answered _ (.ok _) | .ended _ _ (.ok _) => inferInstanceAs (Decidable False)

/-- **Events that are alike**: answers to the same call that are. -/
inductive Event.Same : Event → Event → Prop
  | answered (c : Call) {outcome outcome' : Except Halt Answer}
    (same : SameOutcome Answer.Same outcome outcome') :
    Same (.answered c outcome) (.answered c outcome')
  | ended (t : TxnId) (committed : Bool) (outcome : Except Halt Unit) :
    Same (.ended t committed outcome) (.ended t committed outcome)

namespace Session

open Engine (Paired)

/-- **Sessions that agree**: in their workspaces, and in the calls that are
blocked. -/
structure Agree (s₁ s₂ : Session) : Prop where
  workspaces : s₁.workspace.Agree s₂.workspace
  blocked : s₂.blocked = s₁.blocked

/-- **What two sessions answer is alike**, and they agree afterwards. -/
structure Alike (r₁ r₂ : List Event × Session) : Prop where
  history : List.Forall₂ Event.Same r₁.1 r₂.1
  sessions : r₁.2.Agree r₂.2

variable {s s₁ s₂ : Session} {c : Call} {a : Action} {steps : Option Nat}

/-- An insertion is let through alike. -/
theorem insertion_congr (paired : Paired s₁.engine s₂.engine) (t : TxnId) (table : TableId)
    (row : Tuple) : insertion s₂.engine t table row = insertion s₁.engine t table row := by
  unfold insertion
  rw [paired.agree.catalog]
  cases file : s₁.engine.catalog.file table with
  | error cause => rfl
  | ok f =>
    have count := paired.pageCount (Catalog.table_of_file file ▸ file)
    simp only [bind, Except.bind, HeapFile.firstStage, count]

/-- A deletion is let through alike. -/
theorem deletion_congr (paired : Paired s₁.engine s₂.engine) (t : TxnId) (row : Tuple) :
    deletion s₂.engine t row = deletion s₁.engine t row := by
  unfold deletion
  rw [paired.agree.catalog]

section Perform

variable (agree : s₁.Agree s₂) (paired : Paired s₁.engine s₂.engine) (sound : s₁.Sound)

include agree paired sound

/-- **A call that is asked** is answered alike, or waits in both sessions. -/
theorem alike_taken (callSound : c.Sound s₁.engine) (left : List (Blocked Call))
    (waiting : Call → List (Blocked Call))
    (intact : (taken c left waiting (c.ask s₁.workspace steps)).2.engine.Intact)
    (room₁ : ∀ event ∈ (taken c left waiting (c.ask s₁.workspace steps)).1, ¬event.NoRoom)
    (room₂ : ∀ event ∈ (taken c left waiting (c.ask s₂.workspace steps)).1, ¬event.NoRoom) :
    Alike (taken c left waiting (c.ask s₁.workspace steps))
      (taken c left waiting (c.ask s₂.workspace steps)) := by
  rw [engine_taken] at intact
  have asked := Call.matched_ask agree.workspaces paired sound.files callSound intact
  generalize c.ask s₁.workspace steps = r₁ at asked room₁ ⊢
  generalize c.ask s₂.workspace steps = r₂ at asked room₂ ⊢
  cases asked with
  | noRoomLeft => exact absurd rfl (room₁ _ List.mem_cons_self)
  | noRoomRight => exact absurd rfl (room₂ _ List.mem_cons_self)
  | waits after => exact ⟨.nil, after, rfl⟩
  | answers same after => exact ⟨.cons (.answered c same) .nil, after, rfl⟩

theorem alike_make (callSound : c.Sound s₁.engine) (intact : (s₁.make c steps).2.engine.Intact)
    (room₁ : ∀ event ∈ (s₁.make c steps).1, ¬event.NoRoom)
    (room₂ : ∀ event ∈ (s₂.make c steps).1, ¬event.NoRoom) :
    Alike (s₁.make c steps) (s₂.make c steps) := by
  rw [make_eq] at intact room₁ room₂ ⊢
  rw [make_eq]
  rw [agree.blocked] at room₂ ⊢
  exact alike_taken agree paired sound callSound _ _ intact room₁ room₂

theorem alike_makeIf {made : Except Fault Call}
    (callSound : ∀ c, made = .ok c → c.Sound s₁.engine)
    (intact : (s₁.makeIf steps made).2.engine.Intact)
    (room₁ : ∀ event ∈ (s₁.makeIf steps made).1, ¬event.NoRoom)
    (room₂ : ∀ event ∈ (s₂.makeIf steps made).1, ¬event.NoRoom) :
    Alike (s₁.makeIf steps made) (s₂.makeIf steps made) := by
  cases made with
  | error cause => exact ⟨.nil, agree⟩
  | ok c => exact alike_make agree paired sound (callSound c rfl) intact room₁ room₂

theorem alike_resume (n : Nat) (intact : (s₁.resume n steps).2.engine.Intact)
    (room₁ : ∀ event ∈ (s₁.resume n steps).1, ¬event.NoRoom)
    (room₂ : ∀ event ∈ (s₂.resume n steps).1, ¬event.NoRoom) :
    Alike (s₁.resume n steps) (s₂.resume n steps) := by
  cases found : s₁.blocked[n]? with
  | none =>
    rw [resume, resume, agree.blocked, found]
    exact ⟨.nil, agree⟩
  | some b =>
    rw [resume_of_some found] at intact room₁ ⊢
    rw [resume_of_some (agree.blocked ▸ found), agree.blocked] at room₂ ⊢
    exact alike_taken agree paired sound (sound.blocked b (List.mem_of_getElem? found)) _ _
      intact room₁ room₂

/-- **The end of a transaction** is the same. -/
theorem alike_complete (sound₂ : s₂.Sound) (t : TxnId) (committed : Bool) :
    Alike (s₁.perform (.complete t committed) steps)
      (s₂.perform (.complete t committed) steps) := by
  obtain ⟨e₁, run₁, ended₁⟩ := complete_engine sound.coherent t committed
  obtain ⟨e₂, run₂, ended₂⟩ := complete_engine sound₂.coherent t committed
  have after := paired.ended ended₁ ended₂
  rw [perform, perform, onWorkspace, onWorkspace, Workspace.onEngine, Workspace.onEngine, ← engine,
    ← engine, run₁, run₂]
  exact ⟨.cons (.ended ..) .nil, agree.workspaces.advance after.agree, agree.blocked⟩

/-- A transaction is ended alike, if it is active. -/
theorem alike_finish (sound₂ : s₂.Sound) (t : TxnId) (committed : Bool) :
    Alike (s₁.perform (.finish t committed) steps) (s₂.perform (.finish t committed) steps) := by
  have status : s₂.workspace.status t = s₁.workspace.status t := by
    rw [Workspace.status, Workspace.status, agree.workspaces.statuses]
  have refused (cause : Fault) : Alike ([.ended t committed (.error (.fault cause))], s₁)
      ([.ended t committed (.error (.fault cause))], s₂) :=
    ⟨.cons (.ended ..) .nil, agree⟩
  rw [perform, perform, onWorkspace, onWorkspace]
  cases committed with
  | true =>
    obtain ⟨e₁, run₁, ended₁⟩ := Engine.commit_spec sound.coherent t
    obtain ⟨e₂, run₂, ended₂⟩ := Engine.commit_spec sound₂.coherent t
    have after := agree.workspaces.advance (paired.ended ended₁ ended₂).agree
    dsimp only
    rw [if_pos rfl, if_pos rfl, Workspace.commit, Workspace.commit, status]
    cases s₁.workspace.status t with
    | active =>
      dsimp only
      rw [Workspace.onEngine, Workspace.onEngine, ← engine, ← engine, run₁, run₂]
      exact ⟨.cons (.ended ..) .nil, after.setStatus t .committed, agree.blocked⟩
    | committed => exact refused _
    | aborted => exact refused _
  | false =>
    obtain ⟨e₁, run₁, ended₁⟩ := Engine.abort_spec sound.coherent t
    obtain ⟨e₂, run₂, ended₂⟩ := Engine.abort_spec sound₂.coherent t
    have after := (agree.workspaces.setStatus t .aborted).advance (paired.ended ended₁ ended₂).agree
    dsimp only
    rw [if_neg Bool.false_ne_true, if_neg Bool.false_ne_true, Workspace.abort, Workspace.abort,
      status]
    cases s₁.workspace.status t with
    | active =>
      have same (s : Session) : (s.workspace.setStatus t .aborted).engine = s.engine := rfl
      dsimp only
      rw [Workspace.onEngine, Workspace.onEngine, same, same, run₁, run₂]
      exact ⟨.cons (.ended ..) .nil, after, agree.blocked⟩
    | committed => exact refused _
    | aborted => exact refused _

/-- **Every action** is answered alike. -/
theorem alike_perform (sound₂ : s₂.Sound) (intact : (s₁.perform a steps).2.engine.Intact)
    (room₁ : ∀ event ∈ (s₁.perform a steps).1, ¬event.NoRoom)
    (room₂ : ∀ event ∈ (s₂.perform a steps).1, ¬event.NoRoom) :
    Alike (s₁.perform a steps) (s₂.perform a steps) := by
  induction a generalizing steps with
  | begin =>
    refine ⟨.nil, ⟨agree.workspaces.engines, ?_, agree.workspaces.cursors, agree.workspaces.held⟩,
      agree.blocked⟩
    exact congrArg (· ++ [.active]) agree.workspaces.statuses
  | fetch t page mode keep => exact alike_make agree paired sound trivial intact room₁ room₂
  | insert t table row =>
    rw [perform] at intact room₁ room₂ ⊢
    rw [perform]
    rw [insertion_congr paired] at room₂ ⊢
    exact alike_makeIf agree paired sound (fun c h => (makes_insertion h).sound) intact room₁
      room₂
  | delete t row =>
    rw [perform] at intact room₁ room₂ ⊢
    rw [perform]
    rw [deletion_congr paired] at room₂ ⊢
    exact alike_makeIf agree paired sound (fun c h => (makes_deletion h).sound) intact room₁ room₂
  | scan t table =>
    rw [perform, perform, paired.agree.catalog]
    cases s₁.engine.catalog.file table with
    | error cause => exact ⟨.nil, agree⟩
    | ok f =>
      refine ⟨.nil, ⟨agree.workspaces.engines, agree.workspaces.statuses, ?_,
        agree.workspaces.held⟩, agree.blocked⟩
      exact congrArg (· ++ [Cursor.file ⟨t, f⟩ none]) agree.workspaces.cursors
  | method k m =>
    have uses : s₂.usesCursor k = s₁.usesCursor k := by rw [usesCursor, usesCursor, agree.blocked]
    rw [perform] at intact room₁ room₂ ⊢
    rw [perform]
    rw [uses] at room₂ ⊢
    split
    · exact ⟨.nil, agree⟩
    · rename_i free
      rw [if_neg free] at intact room₁ room₂
      exact alike_make agree paired sound trivial intact room₁ room₂
  | finish t committed => exact alike_finish agree paired sound sound₂ t committed
  | complete t committed => exact alike_complete agree paired sound sound₂ t committed
  | resume n => exact alike_resume agree paired sound n intact room₁ room₂
  | partly n a ih => exact ih intact room₁ room₂

end Perform

/-! ## Runs -/

/-- **Every run** is answered alike. -/
theorem alike_run (agree : s₁.Agree s₂) (sound₁ : s₁.Sound) (sound₂ : s₂.Sound)
    {actions : List Action} (intact : (s₁.run actions).2.engine.Intact)
    (room₁ : ∀ event ∈ (s₁.run actions).1, ¬event.NoRoom)
    (room₂ : ∀ event ∈ (s₂.run actions).1, ¬event.NoRoom) :
    Alike (s₁.run actions) (s₂.run actions) := by
  induction actions generalizing s₁ s₂ with
  | nil => exact ⟨.nil, agree⟩
  | cons a actions ih =>
    rw [run] at intact room₁ room₂ ⊢
    rw [run]
    dsimp only at intact room₁ room₂ ⊢
    obtain ⟨sound₁', step⟩ := perform_spec sound₁ a
    have sound₂' := (perform_spec sound₂ a).1
    have intact' : (s₁.perform a).2.engine.Intact := fun p hit =>
      intact p (overrun_run sound₁' actions hit)
    have paired : Paired s₁.engine s₂.engine :=
      ⟨sound₁.coherent, sound₂.coherent, fun p hit => intact' p (step.overrun sound₁ hit),
        agree.workspaces.engines⟩
    have first := alike_perform agree paired sound₁ sound₂ intact'
      (fun event h => room₁ event (List.mem_append_left _ h))
      fun event h => room₂ event (List.mem_append_left _ h)
    have rest := ih first.sessions sound₁' sound₂' intact
      (fun event h => room₁ event (List.mem_append_right _ h))
      fun event h => room₂ event (List.mem_append_right _ h)
    exact ⟨List.rel_append first.history rest.history, rest.sessions⟩

/-- **What two runs have in common** that differ in the sizes of their caches. -/
structure Transparent (r₁ r₂ : List Event × Session) : Prop extends Alike r₁ r₂ where
  locks : r₂.2.engine.locks = r₁.2.engine.locks
  /-- The files are as long, -/
  lengths : r₁.2.engine.SameSizes r₂.2.engine
  /-- and the same tuples are stored in them. -/
  files : ∀ p, SameOutcome (fun d₁ d₂ => d₂.tuples = d₁.tuples) (r₁.2.engine.readPage p)
    (r₂.2.engine.readPage p)
  /-- Every page that is fetched shows the same tuples in the same slots, and
  is dirty for the same transaction. -/
  pages : ∀ p, SameOutcome
    (fun q₁ q₂ => q₂.tuples = q₁.tuples ∧ q₂.usedSlots = q₁.usedSlots ∧ q₂.dirtier = q₁.dirtier)
    (r₁.2.engine.pageSeen p) (r₂.2.engine.pageSeen p)

/-- Runs that are alike have all this in common. -/
theorem Alike.transparent {r₁ r₂ : List Event × Session} (alike : Alike r₁ r₂)
    (paired : Paired r₁.2.engine r₂.2.engine) : Transparent r₁ r₂ where
  toAlike := alike
  locks := paired.agree.locks
  lengths := paired.agree.sizes
  files p := (paired.readPage p).mono fun _ _ rows => rows.tuples
  pages p := (paired.pageSeen p).mono fun _ _ rows =>
    ⟨rows.tuples, rows.usedSlots, rows.dirtier⟩

/-- **What actions come to** over a file of numbers, with room for so many
pages. -/
def runNumbers (room : Nat) (content : FileImage) (actions : List Action) : List Event × Session :=
  (ofEngine { Engine.numbers content with capacity := room }).run actions

/-- Two transactions insert a row each, one after the other. -/
def twoInsertions : List Action :=
  [.begin, .begin, .insert ⟨1⟩ ⟨1⟩ (.number 8 none), .finish ⟨1⟩ true,
    .insert ⟨2⟩ ⟨1⟩ (.number 9 none), .finish ⟨2⟩ true]

/-- An insertion into a file of `2 ^ 32` pages erases a page, and goes on with
it. The smaller cache has thrown the page out before, and shows the new row in
the place of the one that the larger cache still shows. -/
example :
    ([1, 2].map fun room =>
      (runNumbers room (FileImage.seven.append ⟨[.hole (9 * 4294967295)]⟩)
        [.fetch ⟨1⟩ ⟨⟨1⟩, 0⟩ .shared false, .fetch ⟨1⟩ ⟨⟨1⟩, 1⟩ .shared false, .complete ⟨1⟩ true,
          .insert ⟨2⟩ ⟨1⟩ (.number 8 none)]).2.engine.seen ⟨⟨⟨1⟩, 0⟩, 0⟩)
      = [some [.int 8], some [.int 7]] := by
  decide +kernel

end Session

end Tablespace
