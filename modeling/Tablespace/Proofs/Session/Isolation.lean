import Tablespace.Proofs.Session.Run

/-!
# What a transaction reads on a page that it holds

From the action by which a transaction comes to hold a page, and for as long
as it holds it, the page is its own affair (`Session.reads_of_holds`): a fetch of
the page gives what the file held when the lock was granted, with the
transaction's own changes to it, and the file keeps the page as it was. What
others do meanwhile – throw the page out of the cache, insert, delete, commit,
abort – makes no difference.

The argument goes by single actions. The one that brings the lock finds a page
that nobody has changed (`Session.Step.granted`), and every later one leaves
the page alone or is the transaction's own (`Session.Step.isolated`): to
change a page, or to end having changed it, another transaction would have to
hold it exclusive.

As always, nothing is promised about a page that is overrun. An append to the
file of such a page asks for no lock on it, and erases it.
-/

namespace Tablespace

namespace Event

variable {t u : TxnId} {history more : List Event} {changes : List Change}

theorem changesOf_append :
    changesOf t (history ++ more) = changesOf t history ++ changesOf t more := by
  rw [changesOf, Event.changes, List.filterMap_append, List.filter_append, List.map_append]
  rfl

/-- What a transaction has changed by itself. -/
theorem changesOf_of_own (own : Event.changes history = changes.map fun change => (t, change)) :
    changesOf t history = changes := by
  rw [changesOf, own, List.filter_map, List.map_map,
    List.filter_eq_self.2 fun _ _ => by simp]
  exact List.map_id _

/-- What others have changed is not one's own. -/
theorem changesOf_of_other (own : Event.changes history = changes.map fun change => (u, change))
    (other : u ≠ t) : changesOf t history = [] := by
  rw [changesOf, own, List.filter_map, List.filter_eq_nil_iff.2 fun _ _ => by simp [other]]
  rfl

end Event

namespace Session

variable {s s' : Session} {t : TxnId} {p : PageId} {history : List Event}

/-! ## One action -/

/-- **The action that brings a lock** finds a page that nobody has changed:
what is seen afterwards is what is stored, with the transaction's own
changes. -/
theorem Step.granted (step : Step s history s') (sound : s.Sound)
    (free : s.engine.locks.mode? t p = none) (held : s'.engine.locks.mode? t p ≠ none)
    (intact : ¬s'.engine.Overrun p) :
    s.engine.Keeps s'.engine p ∧ ∀ slot,
      s'.engine.seen ⟨p, slot⟩ = s'.engine.stored.after (Event.changesOf t history) ⟨p, slot⟩ := by
  have intact' : ¬s.engine.Overrun p := fun hit => intact (step.overrun sound hit)
  cases step with
  | moves u changes moves answered running =>
    have effect := moves.effect sound.coherent
    by_cases same : u = t
    · subst same
      have kept := effect.readPage p intact
      refine ⟨kept, fun slot => ?_⟩
      -- whoever had changed the page before would hold it exclusive still
      have clean : ∀ v, ¬s.engine.DirtyFor v p := by
        intro v dirty
        by_cases mine : v = u
        · rw [← mine, sound.coherent.owned v p dirty] at free
          cases free
        · exact held (effect.coherent.alone ((effect.dirty v p).2 (.inl dirty)) (Ne.symm mine))
      rw [effect.seen _ intact, Event.changesOf_of_own answered]
      refine Rows.after_congr ?_
      rw [sound.coherent.seen_eq_stored clean intact']
      exact kept.stored.symm
    · exact absurd ((effect.modes t p (Ne.symm same)).trans free) held
  | ends u committed ended answered =>
    refine absurd ?_ held
    rw [ended.modes, LockModes.without]
    split
    · rfl
    · exact free

/-- **An action leaves a page that a transaction holds** as it is in the file,
and what is seen of it is changed by nobody but the transaction. -/
theorem Step.isolated (step : Step s history s') (sound : s.Sound)
    (held : s.engine.locks.mode? t p ≠ none) (still : s'.engine.locks.mode? t p ≠ none)
    (intact : ¬s'.engine.Overrun p) :
    s.engine.Keeps s'.engine p ∧ ∀ slot,
      s'.engine.seen ⟨p, slot⟩ = s.engine.seen.after (Event.changesOf t history) ⟨p, slot⟩ := by
  cases step with
  | moves u changes moves answered running =>
    have effect := moves.effect sound.coherent
    refine ⟨effect.readPage p intact, fun slot => ?_⟩
    rw [effect.seen _ intact]
    by_cases same : u = t
    · subst same
      rw [Event.changesOf_of_own answered]
    · rw [Event.changesOf_of_other answered same, Rows.after_nil]
      -- whoever changes the page would have to hold it alone
      refine Rows.after_of_elsewhere fun c hc eq => held ?_
      have page : c.record.page = p := eq
      exact page ▸ effect.alone c hc t (Ne.symm same)
  | ends u committed ended answered =>
    have other : u ≠ t := by
      rintro rfl
      refine still ?_
      rw [ended.modes, LockModes.without, if_pos rfl]
    -- the one who ends has not changed the page, or he alone would hold it
    have clean : ¬s.engine.DirtyFor u p := fun dirty =>
      held (sound.coherent.alone dirty (Ne.symm other))
    refine ⟨.inl (ended.readPage p fun _ => clean), fun slot => ?_⟩
    have none : Event.changesOf t history = [] := by rw [answered]; rfl
    rw [none, Rows.after_nil, ended.seen _ clean]

/-! ## Every run -/

/-- **A transaction holds a page** in a session, and after each of the actions
that follow. -/
def Holds (t : TxnId) (p : PageId) : Session → List Action → Prop
  | s, [] => s.engine.locks.mode? t p ≠ none
  | s, a :: actions => s.engine.locks.mode? t p ≠ none ∧ Holds t p (s.perform a).2 actions

instance decidableHolds (t : TxnId) (p : PageId) :
    (s : Session) → (actions : List Action) → Decidable (Holds t p s actions)
  | s, [] => inferInstanceAs (Decidable (s.engine.locks.mode? t p ≠ none))
  | s, a :: actions =>
    have := decidableHolds t p (s.perform a).2 actions
    inferInstanceAs
      (Decidable (s.engine.locks.mode? t p ≠ none ∧ Holds t p (s.perform a).2 actions))

theorem Holds.start {actions : List Action} (holds : Holds t p s actions) :
    s.engine.locks.mode? t p ≠ none := by
  cases actions with
  | nil => exact holds
  | cons a actions => exact holds.1

/-- **Actions leave a page that a transaction holds** as it is in the file,
and what is seen of it is changed by nobody but the transaction. -/
theorem run_isolated (sound : s.Sound) {actions : List Action} (holds : Holds t p s actions)
    (there : ∃ q, s.engine.readPage p = .ok q) (intact : ¬(s.run actions).2.engine.Overrun p) :
    (s.run actions).2.engine.readPage p = s.engine.readPage p ∧ ∀ slot,
      (s.run actions).2.engine.seen ⟨p, slot⟩
        = s.engine.seen.after (Event.changesOf t (s.run actions).1) ⟨p, slot⟩ := by
  induction actions generalizing s with
  | nil => exact ⟨rfl, fun _ => rfl⟩
  | cons a actions ih =>
    obtain ⟨sound', step⟩ := perform_spec sound a
    obtain ⟨kept, seen⟩ := step.isolated sound holds.1 holds.2.start
      fun hit => intact (overrun_run sound' actions hit)
    have file := kept.readPage_eq there
    obtain ⟨file', seen'⟩ := ih sound' holds.2 (file.symm ▸ there) intact
    refine ⟨file'.trans file, fun slot => ?_⟩
    rw [run, Event.changesOf_append, Rows.after_append]
    exact (seen' slot).trans (Rows.after_congr (seen slot))

/-- **What a transaction reads on a page**: the page as an engine has it in
its file, with changes. -/
structure Reads (t : TxnId) (p : PageId) (given : Engine) (changes : List Change) (e : Engine) :
    Prop where
  /-- The file keeps the page as it was. -/
  file : e.readPage p = given.readPage p
  /-- The copy in the cache, or else the page of the file, has the rows of the
  page as it was, with the changes. -/
  page : ∃ q, e.pageSeen p = .ok q ∧
    ∀ slot : SlotId, q.rowAt slot.toNat = given.stored.after changes ⟨p, slot⟩
  /-- A fetch gives no other rows. -/
  fetched : ∀ mode q e', (Engine.fetch t p mode).on e = (.ok q, e') →
    ∀ slot : SlotId, q.rowAt slot.toNat = given.stored.after changes ⟨p, slot⟩

theorem reads_of_seen {given e : Engine} {changes : List Change} (coherent : e.Coherent)
    (file : e.readPage p = given.readPage p) (there : ∃ q, given.readPage p = .ok q)
    (seen : ∀ slot, e.seen ⟨p, slot⟩ = given.stored.after changes ⟨p, slot⟩) :
    Reads t p given changes e := by
  have rows : ∀ q, e.pageSeen p = .ok q → ∀ slot : SlotId,
      q.rowAt slot.toNat = given.stored.after changes ⟨p, slot⟩ := by
    intro q page slot
    rw [← seen slot, Engine.seen, page]
    rfl
  refine ⟨file, ?_, fun mode q e' fetched => rows q (Engine.fetch_ok coherent fetched).2.2.1⟩
  obtain ⟨d, there⟩ := there
  cases cached : e.frame? p with
  | none =>
    have page : e.pageSeen p = .ok d := by rw [Engine.pageSeen_of_absent cached, file, there]
    exact ⟨d, page, rows d page⟩
  | some frame =>
    have page := Engine.pageSeen_of_frame cached
    exact ⟨frame.page, page, rows _ page⟩

/-- **A transaction that holds a page reads what was there when it got the
lock**, with its own changes, whatever others do. The lock is brought by the
first action and held after all that follow; the page is in its file by then,
and is the same before the first action and after it. This is so as long as
the page is not overrun; the next append to its file erases a page that is. -/
theorem reads_of_holds (reachable : s.Reachable) (a : Action) (actions : List Action)
    (free : s.engine.locks.mode? t p = none) (holds : Holds t p (s.perform a).2 actions)
    (there : ∃ q, (s.perform a).2.engine.readPage p = .ok q) :
    (¬(s.run (a :: actions)).2.engine.Overrun p →
      s.engine.Keeps (s.perform a).2.engine p
        ∧ Reads t p (s.perform a).2.engine (Event.changesOf t (s.run (a :: actions)).1)
          (s.run (a :: actions)).2.engine)
    ∧ ∀ f, (s.run (a :: actions)).2.engine.catalog.file p.table = .ok f →
      (s.run (a :: actions)).2.engine.Overrun p → f.Erases (s.run (a :: actions)).2.engine p := by
  have sound := reachable.sound
  obtain ⟨sound', step⟩ := perform_spec sound a
  have sound'' : (s.run (a :: actions)).2.Sound := sound.run _
  refine ⟨fun intact => ?_, fun f file hit => hit.erases file⟩
  obtain ⟨kept, seen⟩ := step.granted sound free holds.start
    fun hit => intact (overrun_run sound' actions hit)
  obtain ⟨file, seen'⟩ := run_isolated sound' holds there intact
  refine ⟨kept, reads_of_seen sound''.coherent file there fun slot => ?_⟩
  rw [run, Event.changesOf_append, Rows.after_append]
  exact (seen' slot).trans (Rows.after_congr (seen slot))

/-- A reader next to whom another one reads and ends. -/
theorem reads_of_holds_numbers :
    Reads ⟨1⟩ ⟨⟨1⟩, 0⟩ (ofNumbers .seven [.fetch ⟨1⟩ ⟨⟨1⟩, 0⟩ .shared false]).engine []
      (ofNumbers .seven [.fetch ⟨1⟩ ⟨⟨1⟩, 0⟩ .shared false, .fetch ⟨2⟩ ⟨⟨1⟩, 0⟩ .shared false,
        .complete ⟨2⟩ true]).engine := by
  have intact : ¬(ofNumbers .seven [.fetch ⟨1⟩ ⟨⟨1⟩, 0⟩ .shared false,
      .fetch ⟨2⟩ ⟨⟨1⟩, 0⟩ .shared false, .complete ⟨2⟩ true]).engine.Overrun ⟨⟨1⟩, 0⟩ :=
    Engine.not_overrun_of_lt (f := .numbers) (n := 0) rfl (by decide +kernel)
  have isolation := reads_of_holds (t := ⟨1⟩) (p := ⟨⟨1⟩, 0⟩) (s := ofNumbers .seven [])
    (reachable_numbers _ []) (.fetch ⟨1⟩ ⟨⟨1⟩, 0⟩ .shared false)
    [.fetch ⟨2⟩ ⟨⟨1⟩, 0⟩ .shared false, .complete ⟨2⟩ true] (by decide +kernel)
    (by decide +kernel) ⟨_, rfl⟩
  exact (isolation.1 intact).2

end Session

end Tablespace
