import Tablespace.Proofs.Heap.FirstFit
import Tablespace.Proofs.Session.Harmless

/-!
# Where an insertion puts its row

An insertion that no lock bars puts its row into the first place of the table that holds
none, and does nothing else: no other row changes, no other page becomes dirty or clean,
no other lock is taken or given up, and the file grows only if all its pages are full
(`Engine.Sparing.first_fit`).

The states are all those in which the cache and the file of the table agree on whose pages
they are (`Engine.Sparing`): a pool comes to them as long as no rival of the file is
registered while pages of the table are in the cache. After that it does not hold, for
what is in the cache may then be pages of the rival.
-/

namespace Tablespace

namespace Engine

variable {e e' : Engine} {t : TxnId} {f g : HeapFile} {row : Tuple} {n : UInt32} {slot : SlotId}
  {p : PageId}

/-- **The states that a pool can come to while it spares a file**: since some time at which
no page of its table was in the cache, no rival was registered or inserted into. -/
inductive Sparing (f : HeapFile) : Engine → Prop where
  /-- No page of the table is in the cache. -/
  | fresh {e : Engine} (pooled : e.Pooled) (alone : e.catalog.Alone f)
      (absent : ∀ p, p.table = f.table → e.frame? p = none) : Sparing f e
  /-- Something is done through the pool. -/
  | perform {e : Engine} (before : Sparing f e) (deed : Deed) (pooled : deed.Pooled)
      (spares : deed.Spares f e) : Sparing f (e.perform deed)

/-- **A file that is spared is tended.** -/
theorem Sparing.tends (sparing : e.Sparing f) : e.Orderly ∧ e.Tends f := by
  induction sparing with
  | fresh pooled alone absent => exact ⟨pooled.orderly, tends_of_absent alone absent⟩
  | perform _ deed pooled spares ih => exact ⟨ih.1.perform pooled, ih.2.perform ih.1 pooled spares⟩

/-- **A row is put into a place**, and nothing else is done. -/
structure Placed (f : HeapFile) (t : TxnId) (row : Tuple) (e : Engine) (n : UInt32) (slot : SlotId)
    (e' : Engine) : Prop where
  catalog : e'.catalog = e.catalog
  /-- The file grows by one page if there is no room in the others. Other than that the
  files are as they were. -/
  files : if n.toNat < f.count e.volume then e'.volume = e.volume
    else f.GrownByPage e.volume e'.volume
  /-- The page is in the cache, and dirty for the transaction. -/
  dirty : ∀ u, e'.DirtyFor u ⟨f.table, n⟩ ↔ u = t
  /-- Other pages are dirty for whom they were. -/
  others : ∀ u p, p ≠ ⟨f.table, n⟩ → (e'.DirtyFor u p ↔ e.DirtyFor u p)
  /-- The transaction holds the page exclusive. All other locks are as they were. -/
  locks : e'.locks.mode? = LockModes.set e.locks.mode? t ⟨f.table, n⟩ (some .exclusive)
  /-- The row is seen in its place, as the columns keep it, next to the others of the
  page. -/
  row : ∀ s, e'.seen ⟨⟨f.table, n⟩, s⟩
    = if s = slot then some (f.schema.keep row.values) else e.seen ⟨⟨f.table, n⟩, s⟩
  /-- The rows of other pages are as they were, seen and stored. -/
  rows : ∀ g p, e.Sparing g → e.catalog.file p.table = .ok g → p ≠ ⟨f.table, n⟩ →
    ¬g.Overrun e.volume p.number → e.Keeps e' p
      ∧ ∀ s, e'.stored ⟨p, s⟩ = e.stored ⟨p, s⟩ ∧ e'.seen ⟨p, s⟩ = e.seen ⟨p, s⟩

/-- **A row that was put into a page and is marked** is put into its place. -/
theorem Clear.placed {e₁ e₂ : Engine} {frame : Frame} {q : Page} (clear : e.Clear f)
    (few : f.count e.volume < 4294967295)
    (reworked : Reworked (f.Appends True) t ⟨f.table, n⟩ e e₁ frame q e₂)
    (volume : e₁.volume
      = if n.toNat < f.count e.volume then e.volume else (f.appendPage e.volume).2)
    (rows : ∀ s : SlotId, q.rowAt s.toNat
      = if s = slot then some (f.schema.keep row.values) else e.seen ⟨⟨f.table, n⟩, s⟩) :
    ∃ e', (install t q).on e₂ = (.ok (), e') ∧ Placed f t row e n slot e' := by
  obtain ⟨cache, installed, -, here, elsewhere⟩ := reworked.install clear.orderly
  have quietly := reworked.quietly
  have catalog : e₁.catalog = e.catalog := Quietly.catalog quietly
  have grows : f.GrownByPage e.volume (f.appendPage e.volume).2 :=
    clear.whole.grownByPage clear.small
  have there : frame? { e₁ with cache := cache } ⟨f.table, n⟩
      = some ⟨q.markDirty (some t), frame.load⟩ := here
  refine ⟨_, installed, ⟨catalog, ?files, ?dirty, ?others, reworked.modes, ?row, ?rows⟩⟩
  case files =>
    show if _ then e₁.volume = e.volume else f.GrownByPage e.volume e₁.volume
    split at volume
    · rwa [if_pos ‹_›]
    · rw [if_neg ‹_›, volume]
      exact grows
  case dirty =>
    intro u
    rw [DirtyFor, there]
    simp [Page.markDirty, eq_comm]
  case others =>
    intro u p other
    rw [DirtyFor, show frame? { e₁ with cache := cache } p = e₁.frame? p from elsewhere p other]
    exact Quietly.dirtyFor_iff quietly
  case row =>
    intro s
    rw [seen, Engine.pageSeen_of_frame there]
    exact rows s
  case rows =>
    intro g p sparing file other intact
    obtain ⟨-, tends⟩ := sparing.tends
    have spares : g.Spares f := tends.spares clear.file
    -- another file is as it was, and this one is not too long yet
    have intact' : ¬g.Overrun e₁.volume p.number := by
      intro hit
      rw [volume] at hit
      split at hit
      · exact intact hit
      · by_cases path : f.path = g.path
        · obtain rfl := spares (.inr path)
          have long := (HeapFile.overrun_iff.1 hit).1
          rw [grows.counted] at long
          omega
        · have same := congrArg FileImage.size (grows.elsewhere g.path (Ne.symm path))
          rw [HeapFile.Overrun, HeapFile.pages_congr same, HeapFile.pageCount_congr same] at hit
          exact intact hit
    have kept := tends.quietly (HeapFile.bears_appends spares fun _ => trivial) file quietly intact'
    have shown (s : SlotId) : seen { e₁ with cache := cache } ⟨p, s⟩ = e₁.seen ⟨p, s⟩ := by
      have frame : frame? { e₁ with cache := cache } p = e₁.frame? p := elsewhere p other
      rw [seen, seen, Engine.pageSeen, Engine.pageSeen, frame]
      rfl
    have keeps : e.Keeps { e₁ with cache := cache } p := (kept 0).1
    exact ⟨keeps, fun s => ⟨keeps.stored, (shown s).trans (kept s).2⟩⟩

/-- **An insertion that no lock bars** puts its row into the first place of the table that
holds none, and does nothing else. The table must suit the row, its pages must be
readable and not too many, and there must be room in the cache. -/
theorem Sparing.first_fit (sparing : e.Sparing f) (file : e.catalog.file f.table = .ok f)
    (conforms : row.Conforms) (layout : row.schema.sameLayout f.schema = true)
    (readable : ∀ n : UInt32, n.toNat < f.count e.volume →
      ∃ d, f.readPage e.volume ⟨f.table, n⟩ = .ok d)
    (few : f.count e.volume < 4294967295) (room : e.HasRoom)
    (granted : ∀ halt, (e.attempt (Session.insertion e t f.table row)).1 = .error halt →
      ¬halt.Barred t) :
    ∃ n slot e', f.FirstFree e n slot
      ∧ e.attempt (Session.insertion e t f.table row)
        = (.ok (.row (row.located (some ⟨⟨f.table, n⟩, slot⟩))), e')
      ∧ Placed f t row e n slot e' := by
  obtain ⟨orderly, tends⟩ := sparing.tends
  have small : f.count e.volume < 4294967296 := by omega
  have clear : e.Clear f :=
    ⟨orderly, tends, file, HeapFile.whole_of_readable small readable, small, room⟩
  have made : Session.insertion e t f.table row = .ok (.insert t f row true (f.firstStage e)) := by
    have suits : f.checkLayout row = .ok () := if_pos layout
    simp only [Session.insertion, file, suits, bind, Except.bind, pure, Except.pure]
  have first : f.firstStage e = .scanning 0 (f.count e.volume) := by
    rw [HeapFile.firstStage, clear.toNat_pageCount]
  have turned (outcome : Except Halt Answer) (stage : InsertionStage) (e' : Engine)
      (ran : (Call.insertRow t f row true).on (f.firstStage e, e) = (outcome, stage, e')) :
      e.attempt (Session.insertion e t f.table row) = (outcome, e') := by
    rw [made, attempt, Call.turn, show (Workspace.ofEngine e).engine = e from rfl, ran]
    rfl
  have enough := HeapFile.need_le_insertionFuel (f := f) (e := e) (f.firstStage e)
  rw [clear.toNat_pageCount, first] at enough
  have finds := HeapFile.finds_insertFrom t row _ clear conforms layout (Nat.zero_le _)
    (fun _ _ lower => absurd lower (Nat.not_lt_zero _)) enough
  rw [← first, ← HeapFile.on_insert_none] at finds
  have ran : (Call.insertRow t f row true).on (f.firstStage e, e) = _ := Call.on_insertRow
  cases inserted : (f.insert t row).on (f.firstStage e, e) with | mk outcome state =>
  obtain ⟨stage, e₂⟩ := state
  rw [inserted] at finds ran
  cases outcome with
  | error halt =>
    rw [turned _ _ _ ran] at granted
    exact absurd finds (granted halt rfl)
  | ok result =>
    obtain ⟨stored, q⟩ := result
    obtain ⟨n, slot, first, rfl, rows, e₁, frame, reworked, volume⟩ := finds
    obtain ⟨e', installed, placed⟩ := clear.placed few reworked volume rows
    dsimp only at ran
    rw [installed] at ran
    exact ⟨n, slot, e', first, turned _ _ _ ran, placed⟩

/-- **A pool in which a transaction has put a row into a page** that has room for
another. -/
def begun : Engine :=
  pair.perform (.insert ⟨1⟩ .numbers (.number 8 none) true (.scanning 0 0))

theorem sparing_begun : begun.Sparing .numbers := by
  have started : start ⟨9, 2, 1⟩ pair.volume .pair = .ok pair := rfl
  have alone : Catalog.pair.Alone .numbers := by unfold Catalog.Alone HeapFile.Spares; decide
  have new : pair.Sparing .numbers := .fresh (.start started) alone fun _ _ => rfl
  have spares : (Deed.insert ⟨1⟩ .numbers (.number 8 none) true (.scanning 0 0)).Spares .numbers
      pair := ⟨.refl _, fun _ => InsertionStage.known_firstStage pair⟩
  exact new.perform (.insert ⟨1⟩ .numbers (.number 8 none) true (.scanning 0 0)) rfl spares

/-- The transaction inserts another row. It goes into the second slot of the page. -/
theorem first_fit_begun : ∃ n slot e', HeapFile.numbers.FirstFree begun n slot
    ∧ begun.attempt (Session.insertion begun ⟨1⟩ ⟨1⟩ (.number 9 none))
      = (.ok (.row (.number 9 (some ⟨⟨⟨1⟩, n⟩, slot⟩))), e')
    ∧ Placed .numbers ⟨1⟩ (.number 9 none) begun n slot e' := by
  refine sparing_begun.first_fit rfl rfl rfl (fun n there => ?_) (by decide +kernel)
    (.inl (by decide +kernel)) fun halt failed => ?_
  · have one : HeapFile.numbers.count begun.volume = 1 := by decide +kernel
    obtain rfl : n = 0 := UInt32.toNat_inj.1 (Nat.lt_one_iff.1 (one ▸ there))
    exact ⟨_, rfl⟩
  · have answered : (begun.attempt (Session.insertion begun ⟨1⟩ ⟨1⟩ (.number 9 none))).1
        = .ok (.row (.number 9 (some ⟨⟨⟨1⟩, 0⟩, 1⟩))) := by rfl
    cases answered.symm.trans failed

end Engine

end Tablespace
