import Tablespace.Proofs.Session.Run

/-!
# What the files hold after a run

The **ledger** of a history (`Ledger`) has two accounts: the changes of the
transactions that have committed, in the order of their commits, and the
changes of those that have not ended, in the order of the changes. A commit
moves what its transaction has changed from the second to the first; an abort
strikes it out.

The ledger balances (`Ledger.Balances`) when the files hold the settled
changes and no others, and a fetch shows the pending changes on top of these.
It balances after every action, in whatever order transactions act, wait and
end (`Session.run_balances`). So no change of a transaction that has not
committed is ever in a file, and none of one that has is missing.

This is so wherever a page is not overrun. A file of more than `2 ^ 32 - 1`
pages is appended to in the place of a page that it has, because its pages are
counted in 32 bits, and the rows of that page are gone
(`HeapFile.Erases`).
-/

namespace Tablespace

/-- **The changes of a history**, by whether they are to stay. -/
structure Ledger where
  /-- Those of transactions that have committed, in the order of commits. -/
  settled : List Change
  /-- Those of transactions that have not ended, in their order. -/
  pending : List (TxnId × Change)

namespace Ledger

/-- What a transaction has changed and not yet ended. -/
def of (l : Ledger) (t : TxnId) : List Change :=
  (l.pending.filter (·.1 = t)).map (·.2)

/-- **Notes what was answered.** -/
def note (l : Ledger) : Event → Ledger
  | .answered call outcome => { l with pending := l.pending ++ (call.change? outcome).toList }
  | .ended t true (.ok ()) => ⟨l.settled ++ l.of t, l.pending.filter (·.1 ≠ t)⟩
  | .ended t false (.ok ()) => { l with pending := l.pending.filter (·.1 ≠ t) }
  | .ended _ _ (.error _) => l

/-- **The ledger of a history.** -/
def ofHistory (history : List Event) : Ledger :=
  history.foldl note ⟨[], []⟩

/-- **The files hold what is settled, and a fetch shows what is pending**, if
what was stored at first is what the first engine has stored. -/
structure Balances (l : Ledger) (first e : Engine) : Prop where
  catalog : e.catalog = first.catalog
  /-- The files hold the settled changes and no others. -/
  stored : ∀ r, ¬e.Overrun r.page → e.stored r = first.stored.after l.settled r
  /-- A fetch shows the pending changes as well. -/
  seen : ∀ r, ¬e.Overrun r.page → e.seen r = e.stored.after (l.pending.map (·.2)) r
  /-- A page is dirty by the pending changes to it. -/
  dirty : ∀ t p, e.DirtyFor t p ↔ ∃ c, (t, c) ∈ l.pending ∧ c.record.page = p
  /-- The other pages are as they were, or new and empty. -/
  kept : ∀ p, ¬e.Overrun p → (∀ c ∈ l.settled, c.record.page ≠ p) → first.Keeps e p
  /-- The files are arrays of pages, as many as before or more. -/
  grown : ∀ table f, first.catalog.file table = .ok f →
    f.Whole e.volume ∧ f.pages first.volume ≤ f.pages e.volume

variable {l : Ledger} {first e e' : Engine} {t : TxnId} {p : PageId} {r : RecordId}
  {changes : List Change} {committed : Bool}

theorem mem_of {c : Change} : c ∈ l.of t ↔ (t, c) ∈ l.pending := by
  simp [of]

/-- A history in which nobody has ended is a list of pending changes. -/
theorem foldl_note_of_running {history : List Event}
    (running : ∀ u committed, .ended u committed (.ok ()) ∉ history) :
    history.foldl note l = { l with pending := l.pending ++ Event.changes history } := by
  induction history generalizing l with
  | nil => simp [Event.changes]
  | cons event history ih =>
    have rest := fun u committed later => running u committed (List.mem_cons_of_mem _ later)
    rw [List.foldl_cons, ih rest]
    cases event with
    | answered call outcome =>
      rw [note, Event.changes, Event.changes, List.filterMap_cons, Event.change?]
      cases call.change? outcome <;> simp
    | ended u committed outcome =>
      cases outcome with
      | ok _ => exact absurd List.mem_cons_self (running u committed)
      | error halt =>
        have same : l.note (.ended u committed (.error halt)) = l := by cases committed <;> rfl
        rw [same]
        rfl

/-! ## The ledger stays balanced -/

namespace Balances

variable (balances : l.Balances first e)

include balances

/-- A page that a transaction has changed has no pending changes of
others. -/
theorem of_dirtyFor (mine : e.DirtyFor t r.page) (rows : Rows) :
    rows.after (l.of t) r = rows.after (l.pending.map (·.2)) r := by
  refine Rows.after_map_filter fun c hc other eq => ?_
  have dirty : e.DirtyFor c.1 r.page := (balances.dirty _ _).2 ⟨c.2, hc, eq⟩
  exact absurd (dirty.unique mine) (by simpa using other)

/-- A page that a transaction has not changed has no pending changes of
it. -/
theorem elsewhere (clean : ¬e.DirtyFor t p) : ∀ c ∈ l.of t, c.record.page ≠ p :=
  fun c hc eq => clean ((balances.dirty t p).2 ⟨c, mem_of.1 hc, eq⟩)

/-- **Moves add to what is pending.** -/
theorem moves (effect : Engine.Effect t e changes e') :
    Balances { l with pending := l.pending ++ changes.map fun change => (t, change) } first e' where
  catalog := effect.catalog.trans balances.catalog
  stored r intact := by
    rw [(effect.readPage r.page intact).stored]
    exact balances.stored r fun hit => intact (effect.overrun hit)
  seen r intact := by
    have stored := (effect.readPage r.page intact).stored
    rw [effect.seen r intact, List.map_append, List.map_map, Rows.after_append]
    have labels : changes.map ((·.2) ∘ fun change => (t, change)) = changes := List.map_id _
    rw [labels]
    refine Rows.after_congr ?_
    rw [balances.seen r fun hit => intact (effect.overrun hit)]
    exact Rows.after_congr stored.symm
  dirty u p := by
    rw [effect.dirty, balances.dirty]
    simp only [List.mem_append, List.mem_map, Prod.mk.injEq]
    grind
  kept p intact others :=
    (balances.kept p (fun hit => intact (effect.overrun hit)) others).trans
      balances.catalog (effect.readPage p intact)
  grown table f file := by
    have found : e.catalog.file table = .ok f := balances.catalog ▸ file
    have grown := effect.grown table f found
    exact ⟨grown.whole (balances.grown table f file).1,
      (balances.grown table f file).2.trans grown.pages_le⟩

section Ends

variable (ended : Engine.Ended t committed e e')

include ended

omit balances in
/-- A page that was overrun is so when a transaction has ended. -/
theorem overrun_of_ended (hit : e.Overrun p) : e'.Overrun p :=
  (ended.sizes.overrun_iff ended.catalog).2 hit

omit balances in
/-- Only what the one who commits has changed is stored anew. -/
theorem stored_of_ended (clean : committed = true → ¬e.DirtyFor t r.page) :
    e'.stored r = e.stored r := by
  rw [Engine.stored, Engine.stored, ended.readPage r.page clean]

/-- **After a commit** the changes of the transaction are stored as well. -/
theorem stored_of_commit (commits : committed = true) (intact : ¬e'.Overrun r.page) :
    e'.stored r = first.stored.after (l.settled ++ l.of t) r := by
  have intact' : ¬e.Overrun r.page := fun hit => intact (overrun_of_ended ended hit)
  have before := balances.stored r intact'
  rw [Rows.after_append]
  by_cases mine : e.DirtyFor t r.page
  · -- what was seen is stored, and all of it was changed by the one who commits
    rw [ended.stored commits r mine, balances.seen r intact', ← balances.of_dirtyFor mine]
    exact Rows.after_congr before
  · rw [stored_of_ended ended fun _ => mine, before,
      Rows.after_of_elsewhere (balances.elsewhere mine)]

/-- **After the end of a transaction** the changes of the others are seen. -/
theorem seen_of_ended (intact : ¬e'.Overrun r.page) :
    e'.seen r = e'.stored.after ((l.pending.filter (·.1 ≠ t)).map (·.2)) r := by
  by_cases mine : e.DirtyFor t r.page
  · -- nobody else has changed the page
    rw [ended.settled r mine]
    refine (Rows.after_of_elsewhere fun c hc eq => ?_).symm
    obtain ⟨⟨u, c⟩, kept, rfl⟩ := List.mem_map.1 hc
    obtain ⟨hc, other⟩ := List.mem_filter.1 kept
    have dirty : e.DirtyFor u r.page := (balances.dirty _ _).2 ⟨c, hc, eq⟩
    exact absurd (dirty.unique mine) (by simpa using other)
  · rw [ended.seen r mine,
      balances.seen r fun hit => intact (overrun_of_ended ended hit)]
    refine (Rows.after_map_filter fun c hc dropped eq => ?_).symm.trans
      (Rows.after_congr (stored_of_ended ended fun _ => mine).symm)
    have owner : c.1 = t := by simpa using dropped
    exact mine ((balances.dirty t r.page).2 ⟨c.2, owner ▸ hc, eq⟩)

/-- A page that no settled change is to is kept. -/
theorem kept_of_ended (intact : ¬e'.Overrun p) (others : ∀ c ∈ l.settled, c.record.page ≠ p)
    (own : committed = true → ∀ c ∈ l.of t, c.record.page ≠ p) : first.Keeps e' p := by
  have clean : committed = true → ¬e.DirtyFor t p := fun commits mine => by
    obtain ⟨c, hc, page⟩ := (balances.dirty t p).1 mine
    exact own commits c (mem_of.2 hc) page
  exact (balances.kept p (fun hit => intact (overrun_of_ended ended hit)) others).trans
    balances.catalog (.inl (ended.readPage p clean))

/-- **The end of a transaction settles its changes**, or strikes them out. -/
theorem ends : Balances (l.note (.ended t committed (.ok ()))) first e' := by
  have pending : (l.note (.ended t committed (.ok ()))).pending = l.pending.filter (·.1 ≠ t) := by
    cases committed <;> rfl
  have settled : (l.note (.ended t committed (.ok ()))).settled
      = if committed then l.settled ++ l.of t else l.settled := by
    cases committed <;> rfl
  exact
    { catalog := ended.catalog.trans balances.catalog
      stored := fun r intact => by
        rw [settled]
        split
        · rename_i commits
          exact balances.stored_of_commit ended commits intact
        · rename_i aborts
          rw [stored_of_ended ended fun commits => absurd commits aborts]
          exact balances.stored r fun hit => intact (overrun_of_ended ended hit)
      seen := fun r intact => by
        rw [pending]
        exact balances.seen_of_ended ended intact
      dirty := fun u p => by
        rw [ended.dirty, balances.dirty, pending]
        simp only [List.mem_filter]
        grind
      kept := fun p intact others => by
        rw [settled] at others
        refine balances.kept_of_ended ended intact (fun c hc => others c ?_)
          fun commits c hc => others c ?_
        · split
          · exact List.mem_append_left _ hc
          · exact hc
        · rw [if_pos commits]
          exact List.mem_append_right _ hc
      grown := fun table f file => by
        have found : e.catalog.file table = .ok f := balances.catalog ▸ file
        have same := ended.sizes table f found
        rw [HeapFile.whole_congr same, HeapFile.pages_congr same]
        exact balances.grown table f file }

end Ends

end Balances

/-- The ledger of no history balances over an engine that nobody has used. -/
theorem balances_of_start {c : Config} {volume : Volume} {catalog : Catalog}
    (whole : ∀ table f, catalog.file table = .ok f → f.Whole volume)
    (h : Engine.start c volume catalog = .ok e) : Balances ⟨[], []⟩ e e := by
  obtain rfl := Engine.eq_of_start h
  have empty : ∀ p, Engine.frame? ⟨volume, catalog, .empty, .empty, 0, c.capacity⟩ p = none :=
    fun _ => rfl
  exact
    { catalog := rfl
      stored := fun _ _ => rfl
      seen := fun r _ => by
        rw [List.map_nil, Rows.after_nil, Engine.seen, Engine.pageSeen_of_absent (empty _),
          Engine.stored]
      dirty := fun t p => by simp [Engine.DirtyFor, empty]
      kept := fun _ _ _ => .inl rfl
      grown := fun table f file => ⟨whole table f file, Nat.le_refl _⟩ }

end Ledger

namespace Session

variable {s : Session}

/-- An action keeps the ledger balanced. -/
theorem Step.balances {s' : Session} {history : List Event} {l : Ledger} {first : Engine}
    (step : Step s history s') (sound : s.Sound) (balances : l.Balances first s.engine) :
    (history.foldl Ledger.note l).Balances first s'.engine := by
  cases step with
  | moves t changes moves answered running =>
    rw [Ledger.foldl_note_of_running running, answered]
    exact balances.moves (moves.effect sound.coherent)
  | ends t committed ended answered =>
    rw [answered]
    exact balances.ends ended

/-- **The ledger of a run balances.** After any actions of any transactions in
any order, the files hold exactly the changes of those that have committed, in
the order of their commits, on all pages but those that are overrun; and the
next append to a file erases the page of it that is. -/
theorem run_balances {c : Config} {volume : Volume} {catalog : Catalog} {e : Engine}
    (apart : catalog.Apart) (whole : ∀ table f, catalog.file table = .ok f → f.Whole volume)
    (start : Engine.start c volume catalog = .ok e) (actions : List Action) :
    (Ledger.ofHistory ((ofEngine e).run actions).1).Balances e ((ofEngine e).run actions).2.engine
      ∧ ∀ p f, ((ofEngine e).run actions).2.engine.catalog.file p.table = .ok f →
        ((ofEngine e).run actions).2.engine.Overrun p →
        f.Erases ((ofEngine e).run actions).2.engine p := by
  have sound := sound_ofEngine apart start
  refine ⟨?_, fun p f file hit => hit.erases file⟩
  refine run_induction
    (P := fun history s => (Ledger.ofHistory history).Balances e s.engine) sound
    (Ledger.balances_of_start whole start) (fun history s a sound balances => ?_) actions
  rw [Ledger.ofHistory, List.foldl_append]
  exact (perform_spec sound a).2.balances sound balances

/-- One transaction commits a number, and another has deleted one. -/
def eightAndSeven : List Action :=
  [.insert ⟨1⟩ ⟨1⟩ (.number 8 none), .finish ⟨1⟩ true,
    .delete ⟨2⟩ .seven]

/-- What is committed is stored, and what is deleted is stored still. -/
theorem run_balances_numbers :
    (ofNumbers .seven eightAndSeven).engine.stored ⟨⟨⟨1⟩, 0⟩, 1⟩ = some [.int 8]
      ∧ (ofNumbers .seven eightAndSeven).engine.stored ⟨⟨⟨1⟩, 0⟩, 0⟩ = some [.int 7] := by
  have balances := (run_balances (Engine.apart_numbers .seven) (Engine.whole_numbers (by decide))
    (Engine.start_numbers .seven) eightAndSeven).1
  have intact : ¬((ofEngine (.numbers .seven)).run eightAndSeven).2.engine.Overrun ⟨⟨1⟩, 0⟩ :=
    Engine.not_overrun_of_lt (f := .numbers) (n := 0) rfl (by decide +kernel)
  exact ⟨(balances.stored ⟨⟨⟨1⟩, 0⟩, 1⟩ intact).trans (by decide +kernel),
    (balances.stored ⟨⟨⟨1⟩, 0⟩, 0⟩ intact).trans (by decide +kernel)⟩

/-- A page is overrun if the file has `2 ^ 32` pages. An insertion erases it,
though it is aborted. -/
example :
    (ofNumbers (FileImage.seven.append ⟨[.hole (9 * 4294967295)]⟩)
      [.insert ⟨1⟩ ⟨1⟩ (.number 8 none), .finish ⟨1⟩ false]).engine.stored ⟨⟨⟨1⟩, 0⟩, 0⟩
      = none := by
  decide +kernel

end Session

end Tablespace
