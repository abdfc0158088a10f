import Tablespace.Proofs.Pool.Finish
import Tablespace.Proofs.Pool.Step

/-!
# The end of a transaction, step by step

To write pages back and to read them again is made of steps, and so is the end of a
transaction (`Engine.steps_complete`). This holds of any engine that is in order,
also if the catalog knows a table by another file than the one that its pages in
the cache were read from.

What reaches the files is told apart from what does not. A commit writes the pages
that the transaction has changed, one after the other, and each of them to the file
that the catalog names for its table then. It writes all of them, or the first ones
if it fails, and nothing else (`Engine.written_commit`).
-/

namespace Tablespace

namespace Engine

variable {e e' : Engine} {grow : HeapFile → Volume → Prop} {t : TxnId} {p : PageId}
  {pages : List PageId} {frame : Frame} {f : HeapFile}

/-! ## Writing pages back -/

/-- **What writing a page back comes to**: it is not in the cache, or it is written to
the file that the catalog names; or nothing is done. -/
def WritesBack (p : PageId) (e : Engine) : Except Halt Unit × Engine → Prop
  | (.ok (), e') => e.frame? p = none ∧ e' = e
    ∨ ∃ frame f, e.frame? p = some frame ∧ e.catalog.file p.table = .ok f
      ∧ frame.page.image.size = f.pageSize ∧ e' = e.wroteBack f p frame
  | (.error _, e') => e' = e

/-- **What writing a page back does.** -/
theorem writesBack_writeBack (orderly : e.Orderly) (p : PageId) :
    WritesBack p e ((writeBack p).on e) := by
  rw [writeBack, Turn.on_bind_ok (Turn.on_get e)]
  cases there : e.cache.peek? p with
  | none => exact .inl ⟨there, rfl⟩
  | some frame =>
    dsimp only
    cases file : e.catalog.file p.table with
    | error cause =>
      rw [Turn.on_bind_error (Turn.on_ofExcept_error _ _)]
      rfl
    | ok f =>
      rw [Turn.on_bind_ok (Turn.on_ofExcept_ok _ _)]
      have name : frame.page.id = p := orderly.named p frame there
      have table : frame.page.id.table = f.table := by rw [name, Catalog.table_of_file file]
      by_cases size : frame.page.image.size = f.pageSize
      · rw [HeapFile.writePage_of_table table size]
        refine .inr ⟨frame, f, there, file, size, ?_⟩
        rw [wroteBack, name]
      · rw [HeapFile.writePage, HeapFile.checkTable, if_pos table, if_neg size]
        rfl

variable (grow) in
theorem steps_writeBack (orderly : e.Orderly) (p : PageId) :
    Steps grow e ((writeBack p).on e).2 := by
  have writes := writesBack_writeBack orderly p
  cases wrote : (writeBack p).on e with | mk outcome e' =>
  rw [wrote] at writes
  cases outcome with
  | error halt =>
    cases writes
    exact .refl
  | ok _ =>
    rcases writes with ⟨-, rfl⟩ | ⟨frame, f, there, file, size, rfl⟩
    · exact .refl
    · exact .single (.write p frame f there file size)

variable (grow) in
/-- Pages are written back step by step. -/
theorem steps_forM_writeBack (orderly : e.Orderly) (pages : List PageId) :
    Steps grow e ((pages.forM writeBack).on e).2 := by
  induction pages generalizing e with
  | nil => exact .refl
  | cons p pages ih =>
    have first := steps_writeBack grow orderly p
    have run : (p :: pages).forM writeBack = writeBack p >>= fun _ => pages.forM writeBack := rfl
    rw [run, Turn.on_bind]
    cases wrote : (writeBack p).on e with | mk outcome e₁ =>
    rw [wrote] at first
    cases outcome with
    | error halt => exact first
    | ok _ => exact first.trans (ih (first.orderly orderly))

variable (grow) in
theorem steps_flushPage (orderly : e.Orderly) (p : PageId) :
    Steps grow e ((flushPage p).on e).2 := by
  rw [flushPage, Turn.on_bind_ok (Turn.on_get e)]
  cases e.cache.peek? p with
  | none => exact .refl
  | some frame =>
    dsimp only
    split
    · have steps := steps_writeBack grow orderly p
      rw [Turn.on_bind]
      cases wrote : (writeBack p).on e with | mk outcome e' =>
      rw [wrote] at steps
      cases outcome <;> exact steps
    · exact .refl

/-! ## Reading pages again -/

variable (grow) in
/-- A page is read again in two steps, and nothing is written. -/
theorem steps_restorePage (p : PageId) (e : Engine) :
    Steps grow e ((restorePage p).on e).2 ∧ ((restorePage p).on e).2.volume = e.volume := by
  have thrown : Steps grow e (e.discard p) := .single (.discard p)
  rw [restorePage, Turn.on_bind_ok (Turn.on_modify _ _), Turn.on_bind_ok (Turn.on_get _)]
  cases read : (e.discard p).readPage p with
  | error cause =>
    rw [Turn.on_bind_error (Turn.on_ofExcept_error _ _)]
    exact ⟨thrown, rfl⟩
  | ok d =>
    rw [Turn.on_bind_ok (Turn.on_ofExcept_ok _ _)]
    have gone : (e.discard p).frame? p = none := Cache.peek?_erase.trans (if_pos rfl)
    exact ⟨thrown.tail (.quiet (.load p d gone read)), rfl⟩

variable (grow) in
theorem steps_restoreAll (pages : List PageId) (e : Engine) :
    Steps grow e ((restoreAll pages).on e).2 ∧ ((restoreAll pages).on e).2.volume = e.volume := by
  induction pages generalizing e with
  | nil => exact ⟨.refl, rfl⟩
  | cons p pages ih =>
    obtain ⟨first, volume⟩ := steps_restorePage grow p e
    obtain ⟨rest, volume'⟩ := ih ((restorePage p).on e).2
    exact ⟨first.trans rest, volume'.trans volume⟩

/-! ## Commit and abort -/

/-- To give up all locks is a step. -/
theorem Steps.releaseAll (steps : Steps grow e e') (orderly : e.Orderly) (t : TxnId) :
    Steps grow e (e'.releaseAll t) :=
  steps.tail (.quiet (.relock _ (steps.orderly orderly).locks.releaseAll))

variable (grow) in
/-- **A transaction is ended step by step.** -/
theorem steps_complete (orderly : e.Orderly) (t : TxnId) (committed : Bool) :
    Steps grow e ((if committed then commit t else abort t).on e).2 := by
  cases committed with
  | false => exact Steps.releaseAll (steps_restoreAll grow _ e).1 orderly t
  | true =>
    have flushed : Steps grow e ((flushPages t).on e).2 := steps_forM_writeBack grow orderly _
    rw [if_pos rfl, commit, Turn.on_ofFn]
    cases ran : (flushPages t).on e with | mk outcome e₁ =>
    rw [ran] at flushed
    cases outcome with
    | ok _ => exact Steps.releaseAll flushed orderly t
    | error halt =>
      cases halt with
      | breach => exact flushed
      | fault | wait | pause =>
        exact Steps.releaseAll (flushed.trans (steps_restoreAll grow _ e₁).1) orderly t

/-! ## What reaches the files -/

/-- The bytes of a page of the cache. -/
def pageBytes (e : Engine) (p : PageId) : List UInt8 :=
  ((e.frame? p).map (·.page.image.toList)).getD []

/-- The files with a page of the cache written to the file that the catalog names. -/
def writing (e : Engine) (v : Volume) (p : PageId) : Volume :=
  match e.catalog.file p.table with
  | .ok f => f.writeAt v p.number (e.pageBytes p)
  | .error _ => v

/-- **The files with pages of the cache written**, each to the file that the catalog
names for its table. -/
def written (e : Engine) (pages : List PageId) : Volume :=
  pages.foldl e.writing e.volume

/-- What is left to be written is the same after a page was written back. -/
theorem written_wroteBack (there : e.frame? p = some frame)
    (file : e.catalog.file p.table = .ok f) :
    (e.wroteBack f p frame).written pages = e.written (p :: pages) := by
  have bytes : (e.wroteBack f p frame).pageBytes = e.pageBytes := funext fun q => by
    rw [pageBytes, frame?_wroteBack there, pageBytes]
    split
    · rename_i same
      rw [same, there]
      rfl
    · rfl
  have writes : (e.wroteBack f p frame).writing = e.writing := by
    funext v q
    rw [writing, bytes]
    rfl
  have first : e.writing e.volume p = (e.wroteBack f p frame).volume := by
    rw [writing, file, pageBytes, there]
    rfl
  rw [written, writes, written, List.foldl_cons, first]

/-- **Pages are written back** to the files that the catalog names, up to the first that
cannot be written. -/
theorem written_forM_writeBack (orderly : e.Orderly)
    (there : ∀ p ∈ pages, ∃ frame, e.frame? p = some frame) :
    ∃ done left, pages = done ++ left ∧ (((pages.forM writeBack).on e).1 = .ok () → left = [])
      ∧ ((pages.forM writeBack).on e).2.volume = e.written done
      ∧ ∀ p ∈ done, ∃ f, e.catalog.file p.table = .ok f := by
  induction pages generalizing e with
  | nil => exact ⟨[], [], rfl, fun _ => rfl, rfl, by simp⟩
  | cons p pages ih =>
    have writes := writesBack_writeBack orderly p
    have steps := steps_writeBack (fun _ _ => False) orderly p
    have run : (p :: pages).forM writeBack = writeBack p >>= fun _ => pages.forM writeBack := rfl
    rw [run, Turn.on_bind]
    cases wrote : (writeBack p).on e with | mk outcome e₁ =>
    rw [wrote] at writes steps
    cases outcome with
    | error halt =>
      cases writes
      exact ⟨[], p :: pages, rfl, fun h => (by cases h), rfl, by simp⟩
    | ok _ =>
      rcases writes with ⟨absent, -⟩ | ⟨frame, f, here, file, -, rfl⟩
      · obtain ⟨frame, here⟩ := there p List.mem_cons_self
        rw [absent] at here
        cases here
      · have still (q : PageId) (hq : q ∈ pages) :
            ∃ g, (e.wroteBack f p frame).frame? q = some g := by
          rw [frame?_wroteBack here]
          split
          · exact ⟨_, rfl⟩
          · exact there q (List.mem_cons_of_mem _ hq)
        obtain ⟨done, left, rfl, all, volume, files⟩ := ih (steps.orderly orderly) still
        refine ⟨p :: done, left, rfl, all, ?_, List.forall_mem_cons.2 ⟨⟨f, file⟩, files⟩⟩
        rw [← written_wroteBack here file]
        exact volume

/-- A commit writes what is written back, and comes to the same end. -/
theorem commit_flush (t : TxnId) (e : Engine) :
    ((commit t).on e).1 = ((flushPages t).on e).1
      ∧ ((commit t).on e).2.volume = ((flushPages t).on e).2.volume := by
  rw [commit, Turn.on_ofFn]
  cases (flushPages t).on e with | mk outcome e₁ =>
  cases outcome with
  | ok _ => exact ⟨rfl, rfl⟩
  | error halt =>
    cases halt with
    | breach => exact ⟨rfl, rfl⟩
    | fault | wait | pause => exact ⟨rfl, (steps_restoreAll (fun _ _ => False) _ e₁).2⟩

/-- **What a commit writes**: the pages that the transaction has changed, each to the file
that the catalog names for its table; all of them, if it succeeds, and otherwise the first
ones. -/
theorem written_commit (orderly : e.Orderly) (t : TxnId) :
    ∃ done left, e.dirtied t = done ++ left ∧ (((commit t).on e).1 = .ok () → left = [])
      ∧ ((commit t).on e).2.volume = e.written done
      ∧ ∀ p ∈ done, ∃ f, e.catalog.file p.table = .ok f := by
  obtain ⟨same, volume⟩ := commit_flush t e
  rw [same, volume]
  exact written_forM_writeBack orderly fun p hp => exists_frame_of_dirtied hp

end Engine

end Tablespace
