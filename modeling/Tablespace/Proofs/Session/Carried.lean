import Tablespace.Proofs.Session.Pooled

/-!
# What becomes of pages

Not only the pool works on its pages. Whoever has a page in hand can change it, marked or not,
and pages can be written to files directly. All of this is a **touch past the pool**
(`Engine.Retouched`): pages stay in the cache by the load that brought them, and files do not
become shorter. Every deed is made of steps and, perhaps, of such a touch at the end, unless it
changes the catalog (`Engine.exists_retouched`). The writing of files by somebody else is left
out (`Deed.Stores`), for it can be anything.

So while the catalog stays, a page in the cache was there before, or it was loaded from the
file that the catalog names (`Engine.Orderly.carried`). And what is written back are pages of
the cache, each to the file that the catalog names for it (`Engine.writes_of_flushes`).
-/

namespace Tablespace

/-- Files are made or written by somebody else. -/
def Deed.Stores : Deed → Prop
  | store _ => True
  | _ => False

/-! ## Insertion and deletion, without the mark -/

namespace Call

/-- An insertion that marks no page is one into the file. -/
theorem on_insertRow_unmarked (t : TxnId) (f : HeapFile) (row : Tuple)
    (state : InsertionStage × Engine) :
    (insertRow t f row false).on state
      = (((f.insert t row).on state).1.map fun stored => .row stored.1,
        ((f.insert t row).on state).2) := by
  rw [insertRow, Turn.on_bind]
  rcases (f.insert t row).on state with ⟨outcome | stored, after⟩ <;> rfl

/-- A deletion that marks no page is one by the place of the row. -/
theorem on_deleteRow_unmarked (t : TxnId) (row : Tuple) (record : RecordId) (e : Engine) :
    (deleteRow t row record false).on e
      = (((Engine.deleteAt t row record).on e).1.map fun q => .page q none,
        ((Engine.deleteAt t row record).on e).2) := by
  rw [deleteRow, Turn.on_bind]
  rcases (Engine.deleteAt t row record).on e with ⟨outcome | q, after⟩ <;> rfl

/-- A deletion writes no file, marked or not. -/
theorem volume_deleteRow {e : Engine} (orderly : e.Orderly) (t : TxnId) (row : Tuple)
    (record : RecordId) (marked : Bool) :
    ((deleteRow t row record marked).on e).2.volume = e.volume := by
  cases marked with
  | true =>
    have steps := deleteRow_steps t row record (fun _ _ => False) orderly
    cases ran : (deleteRow t row record true).on e with | mk outcome e' =>
    rw [ran] at steps
    cases outcome with
    | ok answer => exact steps.2
    | error halt => exact steps.2.1
  | false =>
    have deletes := Engine.deletes_deleteAt (fun _ _ => False) t row orderly record
    rw [on_deleteRow_unmarked]
    cases deleted : (Engine.deleteAt t row record).on e with | mk outcome e' =>
    rw [deleted] at deletes
    cases outcome with
    | error halt => exact deletes.2.1
    | ok q =>
      obtain ⟨e₁, frame, reworked, volume, -⟩ := deletes
      obtain ⟨-, -, -, -, rfl⟩ := reworked
      exact volume

end Call

/-! ## What becomes of pages -/

namespace Engine

variable {e e₁ e' : Engine} {deed : Deed} {p : PageId} {grow : HeapFile → Volume → Prop}

/-- **A touch past the pool**: pages are worked on in the cache, where they stay, and files are
written that do not become shorter. -/
structure Retouched (e e' : Engine) : Prop where
  catalog : e'.catalog = e.catalog
  locks : e'.locks = e.locks
  loads : e'.loads = e.loads
  grows : e.volume.Grows e'.volume
  stays : ∀ p frame', e'.frame? p = some frame' → ∃ frame, e.frame? p = some frame
    ∧ frame.load = frame'.load ∧ frame.page.Alike frame'.page

theorem Retouched.refl (e : Engine) : e.Retouched e :=
  ⟨rfl, rfl, rfl, fun _ => Nat.le_refl _, fun _ frame there => ⟨frame, there, rfl, .refl _⟩⟩

/-- A page in the cache is worked on. -/
theorem retouched_modify {work : Page → Page} (alike : ∀ q : Page, q.Alike (work q)) :
    e.Retouched { e with cache := e.cache.modify p fun frame =>
      { frame with page := work frame.page } } := by
  refine ⟨rfl, rfl, rfl, fun _ => Nat.le_refl _, fun r frame' there => ?_⟩
  rw [frame?, Cache.peek?_modify] at there
  split at there
  · obtain ⟨frame, before, rfl⟩ := Option.map_eq_some_iff.1 there
    exact ⟨frame, before, rfl, alike frame.page⟩
  · exact ⟨frame', there, rfl, .refl _⟩

/-- A page that was locked and changed is worked on. -/
theorem retouched_of_reworked {t : TxnId} {frame : Frame} {q : Page}
    (reworked : Reworked grow t p e e₁ frame q e') (orderly : e.Orderly) : e₁.Retouched e' := by
  obtain ⟨quietly, -, there, alike, rfl⟩ := reworked
  have name : q.id = p := alike.id.trans ((Quietly.orderly quietly orderly).named p frame there)
  subst name
  refine ⟨rfl, rfl, rfl, fun _ => Nat.le_refl _, fun r frame' now => ?_⟩
  rw [frame?_alter there] at now
  split at now
  · rename_i same
    cases now
    exact ⟨frame, same ▸ there, rfl, alike⟩
  · exact ⟨frame', now, rfl, .refl _⟩

/-- A row is inserted, and its page is not marked. -/
theorem exists_retouched_insert (orderly : e.Orderly) (t : TxnId) (file : HeapFile) (row : Tuple)
    (stage : InsertionStage) :
    ∃ e₁, Steps (Deed.Appends e (.insert t file row false stage)) e e₁
      ∧ e₁.Retouched (e.perform (.insert t file row false stage)) := by
  have inserts := HeapFile.inserts_insertFrom t row (file.insertionFuel (stage, e)) orderly
    fun knows : stage.Known file e.volume ∧ e.Tends file => knows
  rw [← HeapFile.on_insert_none] at inserts
  rw [Engine.perform, Call.on_insertRow_unmarked]
  cases inserted : (file.insert t row).on (stage, e) with | mk outcome state =>
  rw [inserted] at inserts
  obtain ⟨stage', e'⟩ := state
  cases outcome with
  | error halt => exact ⟨e', Quietly.steps inserts.1, .refl _⟩
  | ok stored =>
    obtain ⟨n, e₁, frame, reworked, -⟩ := inserts
    exact ⟨e₁, Quietly.steps reworked.quietly, retouched_of_reworked reworked orderly⟩

/-- A row is deleted, and its page is not marked. -/
theorem exists_retouched_delete (orderly : e.Orderly) (t : TxnId) (row : Tuple)
    (record : RecordId) :
    ∃ e₁, Steps (Deed.Appends e (.delete t row record false)) e e₁
      ∧ e₁.Retouched (e.perform (.delete t row record false)) := by
  have deletes := deletes_deleteAt (Deed.Appends e (.delete t row record false)) t row orderly
    record
  rw [Engine.perform, Call.on_deleteRow_unmarked]
  cases deleted : (deleteAt t row record).on e with | mk outcome e' =>
  rw [deleted] at deletes
  cases outcome with
  | error halt => exact ⟨e', Quietly.steps deletes.1, .refl _⟩
  | ok q =>
    obtain ⟨e₁, frame, reworked, -⟩ := deletes
    exact ⟨e₁, Quietly.steps reworked.quietly, retouched_of_reworked reworked orderly⟩

/-- **A deed is made of steps**, and of a touch past the pool at the end, unless it changes the
catalog. -/
theorem exists_retouched (orderly : e.Orderly) (still : ¬deed.Registers) (ours : ¬deed.Stores) :
    ∃ e₁, Steps (deed.Appends e) e e₁ ∧ e₁.Retouched (e.perform deed) := by
  have ofPooled (pooled : deed.Pooled) :
      ∃ e₁, Steps (deed.Appends e) e e₁ ∧ e₁.Retouched (e.perform deed) :=
    ⟨_, steps_perform orderly pooled still, .refl _⟩
  cases deed with
  | insert t file row marked stage =>
    cases marked with
    | true => exact ofPooled rfl
    | false => exact exists_retouched_insert orderly t file row stage
  | delete t row record marked =>
    cases marked with
    | true => exact ofPooled rfl
    | false => exact exists_retouched_delete orderly t row record
  | handle page call => exact ⟨e, .refl, retouched_modify fun q => q.alike_perform call⟩
  | mark page dirtier => exact ⟨e, .refl, retouched_modify fun q => q.alike_markDirty dirtier⟩
  | write file page =>
    refine ⟨e, .refl, ?_⟩
    rw [Engine.perform]
    cases written : file.writePage e.volume page with
    | ok volume =>
      exact ⟨rfl, rfl, rfl, HeapFile.grows_writePage written,
        fun _ frame there => ⟨frame, there, rfl, .refl _⟩⟩
    | error halt => exact .refl e
  | store => exact absurd trivial ours
  | register | forget => exact absurd trivial still
  | lock | release | downgrade | fetch | flushPage | flushPages | flushAll | discard | complete =>
    exact ofPooled trivial

/-- **What becomes of an engine and its pages** while the catalog stays: a page in the cache was
there before, by the same load, or it was loaded since, from the file that the catalog
names. -/
structure Carried (e e' : Engine) : Prop where
  orderly : e'.Orderly
  catalog : e'.catalog = e.catalog
  grows : e.volume.Grows e'.volume
  pages : ∀ p frame', e'.frame? p = some frame' →
    (∃ frame, e.frame? p = some frame ∧ frame.load = frame'.load ∧ frame.page.Alike frame'.page)
      ∨ e.loads ≤ frame'.load
        ∧ ∃ f, e.catalog.file p.table = .ok f ∧ f.Fits e'.volume p frame'.page

/-- **Every deed that leaves the catalog alone** carries the pages on. -/
theorem Orderly.carried (orderly : e.Orderly) (still : ¬deed.Registers) (ours : ¬deed.Stores) :
    e.Carried (e.perform deed) := by
  obtain ⟨e₁, steps, touched⟩ := exists_retouched orderly still ours
  have orderly₁ := steps.orderly orderly
  refine ⟨⟨touched.locks ▸ orderly₁.locks, fun p frame' there => ?_, fun p frame' there => ?_⟩,
    touched.catalog.trans steps.catalog,
    fun path => Nat.le_trans (steps.grows path) (touched.grows path), fun p frame' there => ?_⟩
  · obtain ⟨frame, before, -, alike⟩ := touched.stays p frame' there
    exact alike.id.trans (orderly₁.named p frame before)
  · obtain ⟨frame, before, load, -⟩ := touched.stays p frame' there
    rw [touched.loads, ← load]
    exact orderly₁.numbered p frame before
  · obtain ⟨frame, before, load, alike⟩ := touched.stays p frame' there
    rcases steps.origin before with ⟨old, first, load', alike'⟩ | ⟨later, f, file, fits⟩
    · exact .inl ⟨old, first, load'.trans load, alike'.trans alike⟩
    · exact .inr ⟨load ▸ later, f, file,
        (fits.alike alike).mono (HeapFile.pages_le_of_grows touched.grows)⟩

end Engine

/-! ## Pages that are written back -/

/-- **The pages that a deed writes back**, in their order, as far as they can be written.
An insertion writes none back, but its file may grow; and what is written past the pool is no
page of the cache. -/
def Deed.flushes (e : Engine) : Deed → Option (List PageId)
  | flushPage p => some (match e.frame? p with
    | some frame => if frame.page.isDirty then [p] else []
    | none => [])
  | flushPages t | complete t true => some (e.dirtied t)
  | flushAll => some (e.cache.pagesWith fun frame => frame.page.isDirty)
  | lock .. | release .. | downgrade .. | fetch .. | delete .. | handle .. | mark .. | discard ..
  | complete _ false | register .. | forget => some []
  | insert .. | write .. | store .. => none

namespace Engine

variable {e : Engine} {deed : Deed} {p : PageId} {pages : List PageId} {v : Volume}

/-- **What is written back**: pages of the cache, up to the first that cannot be written, each
to the file that the catalog names. -/
def Writes (e : Engine) (pages : List PageId) (v : Volume) : Prop :=
  (∀ p ∈ pages, ∃ frame, e.frame? p = some frame)
    ∧ ∃ done left, pages = done ++ left ∧ v = e.written done
      ∧ ∀ p ∈ done, ∃ f, e.catalog.file p.table = .ok f

/-- Nothing is written where nothing is to be written. -/
theorem writes_nil (volume : v = e.volume) : e.Writes [] v :=
  ⟨by simp, [], [], rfl, volume, by simp⟩

theorem writes_forM_writeBack (orderly : e.Orderly) (pages : List PageId)
    (there : ∀ p ∈ pages, ∃ frame, e.frame? p = some frame) :
    e.Writes pages ((pages.forM writeBack).on e).2.volume := by
  obtain ⟨done, left, is, -, rest⟩ := written_forM_writeBack orderly there
  exact ⟨there, done, left, is, rest⟩

/-- A page is written back if it is dirty. -/
theorem writes_flushPage (orderly : e.Orderly) (flushes : (Deed.flushPage p).flushes e = some pages) :
    e.Writes pages (e.perform (.flushPage p)).volume := by
  rw [Engine.perform, flushPage, Turn.on_bind_ok (Turn.on_get e)]
  rw [Deed.flushes] at flushes
  cases there : e.cache.peek? p with
  | none =>
    rw [frame?, there] at flushes
    cases flushes
    exact writes_nil rfl
  | some frame =>
    rw [frame?, there] at flushes
    dsimp only at flushes ⊢
    split at flushes
    · rename_i dirty
      cases flushes
      have writes := writes_forM_writeBack orderly [p] fun r hr =>
        ⟨frame, List.mem_singleton.1 hr ▸ there⟩
      have run : [p].forM writeBack = writeBack p >>= fun _ => pure () := rfl
      rw [run, Turn.on_bind] at writes
      rw [if_pos dirty, Turn.on_bind]
      cases wrote : (writeBack p).on e with | mk outcome e' =>
      rw [wrote] at writes
      cases outcome <;> exact writes
    · rename_i clean
      cases flushes
      rw [if_neg clean]
      exact writes_nil rfl

/-- **A deed writes the pages that it is to write back**, and nothing else. -/
theorem writes_of_flushes (orderly : e.Orderly) (flushes : deed.flushes e = some pages) :
    e.Writes pages (e.perform deed).volume := by
  cases deed with
  | lock | release | downgrade | handle | mark | discard | register | forget =>
    cases flushes
    exact writes_nil rfl
  | fetch t page mode =>
    cases flushes
    exact writes_nil (fetches_fetch t page mode e).2
  | delete t row record marked =>
    cases flushes
    exact writes_nil (Call.volume_deleteRow orderly t row record marked)
  | flushPage page => exact writes_flushPage orderly flushes
  | flushPages t =>
    cases flushes
    exact writes_forM_writeBack orderly _ fun _ => exists_frame_of_dirtied
  | flushAll =>
    cases flushes
    exact writes_forM_writeBack orderly _ fun p hp =>
      (Cache.mem_pagesWith.1 hp).imp fun _ => And.left
  | complete t committed =>
    cases committed with
    | false =>
      cases flushes
      exact writes_nil (steps_restoreAll (fun _ _ => False) _ e).2
    | true =>
      cases flushes
      obtain ⟨done, left, is, -, rest⟩ := written_commit orderly t
      exact ⟨fun _ => exists_frame_of_dirtied, done, left, is, rest⟩
  | insert | write | store => cases flushes

end Engine

end Tablespace
