import Tablespace.Proofs.Engine.View

/-!
# What a transaction can do to an engine

As long as a transaction has not ended, all that its calls do to the engine is
made of four kinds of **moves** (`Engine.Move`): its own locks change, clean
pages enter and leave the cache, a row is changed on a page that it holds
exclusive, and a page is appended to a file. A series of moves
(`Engine.Moves`) is labelled with the rows that it changes, in their order.

What a series of moves comes to is in `Engine.Effect`: the files keep what
they hold and grow by empty pages at most, the rows seen are changed by the
labels and by nothing else, other transactions keep their locks, and a page
becomes dirty exactly by a change to it.
-/

namespace Tablespace

/-- **A change of a row**: the row that is put in a place, or none if the
place is emptied. -/
structure Change where
  /-- The place. -/
  record : RecordId
  /-- The row that is there afterwards. -/
  row : Option (List Value)
  deriving DecidableEq

/-- The rows after a change. -/
def Change.apply (rows : Rows) (c : Change) : Rows :=
  fun r => if r = c.record then c.row else rows r

/-- **The rows after a series of changes.** -/
def Rows.after (rows : Rows) (changes : List Change) : Rows :=
  changes.foldl Change.apply rows

namespace Rows

variable {rows other : Rows} {r : RecordId} {changes more : List Change}

@[simp]
theorem after_nil : rows.after [] = rows :=
  rfl

theorem after_append : rows.after (changes ++ more) = (rows.after changes).after more :=
  List.foldl_append

/-- A row depends on what was there and on the changes. -/
theorem after_congr (same : rows r = other r) : rows.after changes r = other.after changes r := by
  induction changes generalizing rows other with
  | nil => exact same
  | cons c changes ih =>
    refine ih ?_
    rw [Change.apply, Change.apply, same]

/-- Changes of other pages leave a row as it is. -/
theorem after_of_elsewhere (elsewhere : ∀ c ∈ changes, c.record.page ≠ r.page) :
    rows.after changes r = rows r := by
  induction changes generalizing rows with
  | nil => rfl
  | cons c changes ih =>
    have first : r ≠ c.record := fun eq => elsewhere c List.mem_cons_self (congrArg _ eq.symm)
    refine (ih fun d hd => elsewhere d (List.mem_cons_of_mem _ hd)).trans ?_
    rw [Change.apply, if_neg first]

/-- Changes of other pages can be left out. -/
theorem after_map_filter {α : Type} {items : List α} {keep : α → Bool} {change : α → Change}
    (dropped : ∀ a ∈ items, keep a = false → (change a).record.page ≠ r.page) :
    rows.after ((items.filter keep).map change) r = rows.after (items.map change) r := by
  induction items generalizing rows with
  | nil => rfl
  | cons a items ih =>
    have rest := fun b hb => dropped b (List.mem_cons_of_mem _ hb)
    cases kept : keep a with
    | true =>
      rw [List.filter_cons_of_pos kept]
      exact ih rest
    | false =>
      rw [List.filter_cons_of_neg (by simp [kept])]
      refine (ih rest).trans (after_congr ?_)
      have first : r ≠ (change a).record := fun eq =>
        dropped a List.mem_cons_self kept (congrArg _ eq.symm)
      rw [Change.apply, if_neg first]

end Rows

namespace Engine

/-- **What may become of a page in the cache** while nobody changes its rows. -/
inductive Recached (e : Engine) (p : PageId) : Option Frame → Prop
  /-- It stays, perhaps with other bytes that are no rows. -/
  | kept (frame frame' : Frame) (there : e.frame? p = some frame)
      (same : frame.page.SameFrame frame'.page)
      (rows : ∀ slot, frame'.page.rowAt slot = frame.page.rowAt slot) : Recached e p (some frame')
  /-- It is loaded from its file. -/
  | loaded (frame' : Frame) (absent : e.frame? p = none)
      (read : e.readPage p = .ok frame'.page) : Recached e p (some frame')
  /-- It makes room, if it is clean, or is still not there. -/
  | absent (clean : ∀ frame, e.frame? p = some frame → frame.page.dirtier = none) :
      Recached e p none

/-- **What a transaction that has not ended does to an engine**, with the rows
that it changes. -/
inductive Move (t : TxnId) (e : Engine) : List Change → Engine → Prop
  /-- Its own locks change, but not those of the pages that it has changed. -/
  | relock (locks : LockTable) (sound : locks.Sound)
      (others : ∀ u p, u ≠ t → locks.mode? u p = e.locks.mode? u p)
      (dirty : ∀ p, e.DirtyFor t p → locks.mode? t p = e.locks.mode? t p) :
      Move t e [] { e with locks := locks }
  /-- Pages enter and leave the cache. -/
  | recache (cache : Cache Frame) (loads : Nat)
      (pages : ∀ p, e.Recached p (cache.peek? p)) :
      Move t e [] { e with cache := cache, loads := loads }
  /-- A row is changed on a page that it holds exclusive. -/
  | store (change : Change) (frame frame' : Frame) (cache : Cache Frame)
      (there : e.frame? change.record.page = some frame)
      (held : e.locks.mode? t change.record.page = some .exclusive)
      (after : cache.peek? change.record.page = some frame')
      (others : ∀ p, p ≠ change.record.page → cache.peek? p = e.frame? p)
      (alike : frame.page.Alike frame'.page) (dirty : frame'.page.dirtier = some t)
      (rows : ∀ s, frame'.page.rowAt s
        = if s = change.record.slot.toNat then change.row else frame.page.rowAt s) :
      Move t e [change] { e with cache := cache }
  /-- A page is appended to a file, and leaves no gap. -/
  | append (f : HeapFile) (file : e.catalog.file f.table = .ok f)
      (next : (f.pageCount e.volume).toNat ≤ f.pages e.volume) :
      Move t e [] { e with volume := (f.appendPage e.volume).2 }

/-- **A series of moves**, with all the rows that it changes. -/
inductive Moves (t : TxnId) (e : Engine) : List Change → Engine → Prop
  | refl : Moves t e [] e
  | step {changes more : List Change} {e' e'' : Engine} (moves : Moves t e changes e')
      (move : Move t e' more e'') : Moves t e (changes ++ more) e''

/-- **What a series of moves comes to.** -/
structure Effect (t : TxnId) (e : Engine) (changes : List Change) (e' : Engine) : Prop where
  /-- The engine stays coherent. -/
  coherent : e'.Coherent
  catalog : e'.catalog = e.catalog
  /-- Files grow by whole pages, and no longer than the page count can tell. -/
  grown : ∀ table f, e.catalog.file table = .ok f → f.Grown e.volume e'.volume
  /-- A page is in its file as it was, or is new and empty. -/
  readPage : ∀ p, ¬e'.Overrun p → e.Keeps e' p
  /-- The rows seen are changed by the labels. -/
  seen : ∀ r, ¬e'.Overrun r.page → e'.seen r = e.seen.after changes r
  /-- Others keep their locks. -/
  modes : ∀ u p, u ≠ t → e'.locks.mode? u p = e.locks.mode? u p
  /-- A page becomes dirty by a change to it. -/
  dirty : ∀ u p, e'.DirtyFor u p ↔ e.DirtyFor u p ∨ u = t ∧ ∃ c ∈ changes, c.record.page = p
  /-- A page that is changed is held by nobody else. -/
  alone : ∀ c ∈ changes, ∀ u, u ≠ t → e.locks.mode? u c.record.page = none

variable {e e' e'' : Engine} {t u : TxnId} {p : PageId} {r : RecordId} {f : HeapFile}
  {changes more : List Change}

/-! ## Locks and the cache -/

theorem Coherent.relock (coherent : e.Coherent) {locks : LockTable} (sound : locks.Sound)
    (others : ∀ u p, u ≠ t → locks.mode? u p = e.locks.mode? u p)
    (dirty : ∀ p, e.DirtyFor t p → locks.mode? t p = e.locks.mode? t p) :
    Effect t e [] { e with locks := locks } where
  coherent :=
    { apart := coherent.apart
      locks := sound
      cached := coherent.cached
      owned := fun u p h => by
        by_cases same : u = t
        · subst same
          exact (dirty p h).trans (coherent.owned u p h)
        · exact (others u p same).trans (coherent.owned u p h)
      clean := coherent.clean }
  catalog := rfl
  grown _ f _ := .refl f e.volume
  readPage _ _ := .inl rfl
  seen _ _ := rfl
  modes := others
  dirty _ _ := ⟨.inl, fun h => h.resolve_right (by simp)⟩
  alone := by simp

/-- A page that was not changed for a transaction is not changed for it by
entering or leaving the cache. -/
theorem Recached.dirtyFor_iff {after : Option Frame} (came : e.Recached p after) :
    (∃ frame, after = some frame ∧ frame.page.dirtier = some u) ↔ e.DirtyFor u p := by
  cases came with
  | kept frame frame' there same rows => simp [DirtyFor, there, same.dirtier]
  | loaded frame' absent read => simp [DirtyFor, absent, (of_readPage read).2]
  | absent clean =>
    refine ⟨fun ⟨frame, h, _⟩ => absurd h (by simp), fun ⟨frame, h, dirty⟩ => ?_⟩
    rw [clean frame h] at dirty
    cases dirty

/-- **A clean page shows the rows of its file.** -/
def Matches (e : Engine) (p : PageId) : Prop :=
  (∀ u, ¬e.DirtyFor u p) → ∀ slot, e.seen ⟨p, slot⟩ = e.stored ⟨p, slot⟩

/-- **Nothing new is seen on a page** that enters or leaves the cache, if it shows
the rows of its file while it is clean. -/
theorem Recached.seen_eq {slot : SlotId} (came : e.Recached p (e'.frame? p))
    (read : e'.readPage p = e.readPage p) (clean : e.Matches p) :
    e'.seen ⟨p, slot⟩ = e.seen ⟨p, slot⟩ := by
  cases now : e'.frame? p with
  | none =>
    rw [now] at came
    cases came with
    | absent undirtied =>
      -- a page that makes room was clean, so the file shows the same
      rw [seen, pageSeen_of_absent now, read]
      have untouched : ∀ u, ¬e.DirtyFor u p := by
        rintro u ⟨frame, there, dirtier⟩
        rw [undirtied frame there] at dirtier
        cases dirtier
      exact (clean untouched slot).symm
  | some frame' =>
    rw [now] at came
    rw [seen, pageSeen_of_frame now, seen]
    cases came with
    | kept frame _ there same rows =>
      rw [pageSeen_of_frame there]
      exact rows _
    | loaded _ absent read => rw [pageSeen_of_absent absent, read]

theorem dirtyFor_recache {cache : Cache Frame} {loads : Nat}
    (pages : ∀ p, e.Recached p (cache.peek? p)) :
    DirtyFor { e with cache := cache, loads := loads } u p ↔ e.DirtyFor u p :=
  (pages p).dirtyFor_iff

theorem Coherent.recache (coherent : e.Coherent) {cache : Cache Frame} {loads : Nat}
    (pages : ∀ p, e.Recached p (cache.peek? p)) :
    Effect t e [] { e with cache := cache, loads := loads } where
  coherent :=
    { apart := coherent.apart
      locks := coherent.locks
      cached := fun p frame' h => by
        have came : e.Recached p (some frame') := h ▸ pages p
        cases came with
        | kept frame _ there same rows =>
          obtain ⟨q, read, alike⟩ := coherent.cached p frame there
          exact ⟨q, read, alike.trans same.toAlike⟩
        | loaded _ absent read => exact ⟨frame'.page, read, .refl _⟩
      owned := fun u p h => coherent.owned u p ((dirtyFor_recache pages).1 h)
      clean := fun p frame' q h clean read intact slot => by
        have came : e.Recached p (some frame') := h ▸ pages p
        cases came with
        | kept frame _ there same rows =>
          rw [rows, coherent.clean p frame q there (same.dirtier ▸ clean) read intact]
        | loaded _ absent read' =>
          rw [show frame'.page = q from Except.ok.inj (read'.symm.trans read)] }
  catalog := rfl
  grown _ f _ := .refl f e.volume
  readPage _ _ := .inl rfl
  seen r intact :=
    Recached.seen_eq (pages r.page) rfl fun undirtied _ => coherent.seen_eq_stored undirtied intact
  modes _ _ _ := rfl
  dirty _ _ := (dirtyFor_recache pages).trans ⟨.inl, fun h => h.resolve_right (by simp)⟩
  alone := by simp

/-! ## Changing a row -/

section Store

variable {change : Change} {frame frame' : Frame} {cache : Cache Frame} (coherent : e.Coherent)
  (there : e.frame? change.record.page = some frame)
  (held : e.locks.mode? t change.record.page = some .exclusive)
  (after : cache.peek? change.record.page = some frame')
  (others : ∀ p, p ≠ change.record.page → cache.peek? p = e.frame? p)
  (alike : frame.page.Alike frame'.page) (dirty : frame'.page.dirtier = some t)
  (rows : ∀ s, frame'.page.rowAt s
    = if s = change.record.slot.toNat then change.row else frame.page.rowAt s)

include coherent held after others dirty in
/-- The page becomes dirty, and nobody else had changed it before. -/
theorem Coherent.dirtyFor_store :
    DirtyFor { e with cache := cache } u p ↔ e.DirtyFor u p ∨ u = t ∧ change.record.page = p := by
  show (∃ g, cache.peek? p = some g ∧ g.page.dirtier = some u) ↔ _
  by_cases same : p = change.record.page
  · subst same
    rw [after]
    constructor
    · rintro ⟨g, hg, h⟩
      cases hg
      exact .inr ⟨Option.some.inj (h.symm.trans dirty), rfl⟩
    · rintro (h | ⟨rfl, -⟩)
      · by_cases mine : u = t
        · exact ⟨frame', rfl, mine ▸ dirty⟩
        · -- two transactions would hold the page exclusive
          have clash := coherent.owned u _ h
          rw [coherent.locks.mode?_eq_none_of_exclusive held mine] at clash
          cases clash
      · exact ⟨frame', rfl, dirty⟩
  · rw [others p same]
    exact ⟨.inl, fun h => h.resolve_right fun h => same h.2.symm⟩

include there after others rows in
/-- The row is seen, and so are all other rows. -/
theorem seen_store (r : RecordId) :
    seen { e with cache := cache } r = if r = change.record then change.row else e.seen r := by
  by_cases same : r.page = change.record.page
  · have record : r = change.record ↔ r.slot.toNat = change.record.slot.toNat := by
      rw [UInt16.toNat_inj]
      refine ⟨congrArg _, fun slot => ?_⟩
      cases r
      cases hc : change.record
      simp_all
    have now : frame? { e with cache := cache } r.page = some frame' := same ▸ after
    rw [seen, seen, pageSeen_of_frame now, pageSeen_of_frame (same ▸ there)]
    simp only [rowsOf, rows, record]
  · have now : frame? { e with cache := cache } r.page = e.frame? r.page := others _ same
    have page : pageSeen { e with cache := cache } r.page = e.pageSeen r.page := by
      rw [pageSeen, pageSeen, now]
      rfl
    rw [if_neg fun eq => same (congrArg _ eq), seen, seen, page]

include coherent there held after others alike dirty in
theorem Coherent.coherent_store : Coherent { e with cache := cache } where
  apart := coherent.apart
  locks := coherent.locks
  cached p g h := by
    by_cases same : p = change.record.page
    · subst same
      obtain ⟨q, read, like⟩ := coherent.cached _ frame there
      rw [show frame? { e with cache := cache } _ = some frame' from after] at h
      cases h
      exact ⟨q, read, like.trans alike⟩
    · exact coherent.cached p g ((others p same).symm.trans h)
  owned u p h := by
    rcases (coherent.dirtyFor_store held after others dirty).1 h with h | ⟨rfl, rfl⟩
    · exact coherent.owned u p h
    · exact held
  clean p g q h clean read intact slot := by
    by_cases same : p = change.record.page
    · subst same
      rw [show frame? { e with cache := cache } _ = some frame' from after] at h
      cases h
      rw [dirty] at clean
      cases clean
    · exact coherent.clean p g q ((others p same).symm.trans h) clean read intact slot

include coherent there held after others alike dirty rows in
theorem Coherent.store : Effect t e [change] { e with cache := cache } where
  coherent := coherent.coherent_store there held after others alike dirty
  catalog := rfl
  grown _ f _ := .refl f e.volume
  readPage _ _ := .inl rfl
  seen r _ := seen_store there after others rows r
  modes _ _ _ := rfl
  dirty u p := by
    simpa using coherent.dirtyFor_store held after others dirty
  alone c hc u other := by
    rw [List.mem_singleton.1 hc]
    exact coherent.locks.mode?_eq_none_of_exclusive held other

end Store

/-! ## Writing a page of a file -/

section WriteAt

variable {n : UInt32} {bytes : List UInt8}

/-- The table of a page of the file that is written has that file. -/
theorem Coherent.eq_of_path (coherent : e.Coherent) (file : e.catalog.file f.table = .ok f)
    {g : HeapFile} {table : TableId} (other : e.catalog.file table = .ok g)
    (path : g.path = f.path) : g = f :=
  coherent.apart.eq_of_path file other path

/-- **What is read after a page of a file was written**: the page written, or
what was read before. -/
theorem Coherent.readPage_writeAt (coherent : e.Coherent) (file : e.catalog.file f.table = .ok f)
    (catalog : e'.catalog = e.catalog) (volume : e'.volume = f.writeAt e.volume n bytes)
    (length : bytes.length = f.pageSize) (next : n.toNat ≤ f.pages e.volume) :
    e'.readPage p = if p = ⟨f.table, n⟩ then .ok (f.page n bytes.toArray (by simpa using length))
      else e.readPage p := by
  show e'.catalog.readPage e'.volume p = _
  rw [catalog, volume]
  exact coherent.apart.readPage_writeAt file length next

/-- Only the file that is written becomes longer. -/
theorem Coherent.size_writeAt (coherent : e.Coherent) (file : e.catalog.file f.table = .ok f)
    (length : bytes.length = f.pageSize) {table : TableId} {g : HeapFile}
    (h : e.catalog.file table = .ok g) :
    ((f.writeAt e.volume n bytes).content g.path).size
      = if g = f then max (e.volume.content f.path).size ((n.toNat + 1) * f.pageSize)
        else (e.volume.content g.path).size := by
  by_cases path : g.path = f.path
  · have same := coherent.eq_of_path file h path
    subst same
    rw [if_pos rfl, HeapFile.size_writeAt length]
  · rw [if_neg fun eq => path (congrArg _ eq), HeapFile.content_writeAt_of_ne path]

end WriteAt

/-- A page that was overrun stays so while files grow. -/
theorem overrun_of_grown (catalog : e'.catalog = e.catalog)
    (grown : ∀ table f, e.catalog.file table = .ok f → f.Grown e.volume e'.volume)
    (h : e.Overrun p) : e'.Overrun p := by
  obtain ⟨f, file, hit⟩ := h
  exact ⟨f, catalog ▸ file, (grown _ _ file).overrun hit⟩

/-! ## Appending a page -/

section Append

variable (coherent : e.Coherent) (file : e.catalog.file f.table = .ok f)
  (next : (f.pageCount e.volume).toNat ≤ f.pages e.volume)

include coherent file next

/-- **What is read after a page was appended**: an empty page in the place of
the page count, and what was read before elsewhere. -/
theorem Coherent.readPage_append (p : PageId) :
    readPage { e with volume := (f.appendPage e.volume).2 } p
      = if p = ⟨f.table, f.pageCount e.volume⟩ then .ok (f.emptyPage (f.pageCount e.volume))
        else e.readPage p := by
  have volume : ({ e with volume := (f.appendPage e.volume).2 } : Engine).volume
      = f.writeAt e.volume (f.pageCount e.volume) (List.replicate f.pageSize 0) := rfl
  refine coherent.readPage_writeAt file ?_ volume List.length_replicate next
  rfl

/-- The file becomes longer by a page, unless the page count cannot tell, and
the others stay as they are. -/
theorem Coherent.grown_append {table : TableId} {g : HeapFile}
    (found : e.catalog.file table = .ok g) : g.Grown e.volume (f.appendPage e.volume).2 := by
  by_cases path : g.path = f.path
  · rw [coherent.eq_of_path file found path]
    exact HeapFile.grown_append next
  · refine .inl ?_
    rw [HeapFile.appendPage_eq, HeapFile.content_writeAt_of_ne path]

/-- A page that was overrun before is overrun still. -/
theorem Coherent.overrun_append (hit : e.Overrun p) :
    Overrun { e with volume := (f.appendPage e.volume).2 } p :=
  overrun_of_grown (e := e) rfl (fun _ _ h => coherent.grown_append file next h) hit

/-- **The page appended is a new one**, or it is overrun. -/
theorem Coherent.fresh_of_append (same : p = ⟨f.table, f.pageCount e.volume⟩)
    (intact : ¬Overrun { e with volume := (f.appendPage e.volume).2 } p) :
    ∃ cause, e.readPage p = .error cause := by
  subst same
  have new := HeapFile.pages_le_of_not_overrun fun hit =>
    intact (coherent.overrun_append file next ⟨f, file, hit⟩)
  cases h : e.readPage ⟨f.table, f.pageCount e.volume⟩ with
  | error cause => exact ⟨cause, rfl⟩
  | ok q =>
    rw [readPage_of_file file] at h
    exact absurd (HeapFile.isOk_readPage_iff.1 ⟨q, h⟩).2 (Nat.not_lt.2 new)

theorem Coherent.coherent_append : Coherent { e with volume := (f.appendPage e.volume).2 } where
  apart := coherent.apart
  locks := coherent.locks
  cached p frame there := by
    obtain ⟨q, old, alike⟩ := coherent.cached p frame there
    by_cases same : p = ⟨f.table, f.pageCount e.volume⟩
    · -- the page is overrun, and what is in the cache is still a state of it
      have new := (coherent.readPage_append file next p).trans (if_pos same)
      exact ⟨_, new, (alike_of_readPage new old rfl).trans alike⟩
    · exact ⟨q, (coherent.readPage_append file next p).trans ((if_neg same).trans old), alike⟩
  owned := coherent.owned
  clean p frame q there clean new intact := by
    by_cases same : p = ⟨f.table, f.pageCount e.volume⟩
    · -- a new page is not in the cache yet
      obtain ⟨cause, missing⟩ := coherent.fresh_of_append file next same intact
      obtain ⟨d, read, -⟩ := coherent.cached p frame there
      rw [missing] at read
      cases read
    · rw [coherent.readPage_append file next, if_neg same] at new
      exact coherent.clean p frame q there clean new fun hit =>
        intact (coherent.overrun_append file next hit)

theorem Coherent.append : Effect t e [] { e with volume := (f.appendPage e.volume).2 } where
  coherent := coherent.coherent_append file next
  catalog := rfl
  grown _ _ h := coherent.grown_append file next h
  readPage p intact := by
    rw [Keeps, coherent.readPage_append file next]
    split
    · rename_i same
      refine .inr ⟨coherent.fresh_of_append file next same intact, f, ?_, ?_⟩ <;> subst same
      · exact file
      · rfl
    · exact .inl rfl
  seen r intact := by
    have frame : frame? { e with volume := (f.appendPage e.volume).2 } r.page
      = e.frame? r.page := rfl
    rw [Rows.after_nil, seen, seen, pageSeen, pageSeen, frame, coherent.readPage_append file next]
    split
    · rfl
    · split
      · rename_i same
        obtain ⟨cause, missing⟩ := coherent.fresh_of_append file next same intact
        rw [missing]
        exact HeapFile.rowAt_emptyPage ..
      · rfl
  modes _ _ _ := rfl
  dirty _ _ := ⟨.inl, fun h => h.resolve_right (by simp)⟩
  alone := by simp

end Append

/-! ## Each move -/

/-- **What each move comes to.** -/
theorem Move.effect (move : Move t e changes e') (coherent : e.Coherent) :
    Effect t e changes e' := by
  cases move with
  | relock locks sound others dirty => exact coherent.relock sound others dirty
  | recache cache loads pages => exact coherent.recache pages
  | store change frame frame' cache there held after others alike dirty rows =>
    exact coherent.store there held after others alike dirty rows
  | append f file next => exact coherent.append file next

/-! ## Series of moves -/

theorem Effect.overrun (effect : Effect t e changes e') : e.Overrun p → e'.Overrun p :=
  overrun_of_grown effect.catalog effect.grown

theorem Effect.refl (coherent : e.Coherent) : Effect t e [] e where
  coherent := coherent
  catalog := rfl
  grown _ f _ := .refl f e.volume
  readPage _ _ := .inl rfl
  seen _ _ := rfl
  modes _ _ _ := rfl
  dirty _ _ := ⟨.inl, fun h => h.resolve_right (by simp)⟩
  alone := by simp

theorem Effect.trans (first : Effect t e changes e') (second : Effect t e' more e'') :
    Effect t e (changes ++ more) e'' where
  coherent := second.coherent
  catalog := second.catalog.trans first.catalog
  grown table f h := (first.grown table f h).trans (second.grown table f (first.catalog ▸ h))
  readPage p intact :=
    (first.readPage p fun hit => intact (second.overrun hit)).trans
      first.catalog (second.readPage p intact)
  seen r intact := by
    have intact' : ¬e'.Overrun r.page := fun hit => intact (second.overrun hit)
    rw [second.seen r intact, Rows.after_append]
    exact Rows.after_congr (first.seen r intact')
  modes u p other := (second.modes u p other).trans (first.modes u p other)
  dirty u p := by
    rw [second.dirty, first.dirty]
    simp only [List.mem_append]
    grind
  alone c hc u other := by
    rcases List.mem_append.1 hc with hc | hc
    · exact first.alone c hc u other
    · rw [← first.modes u _ other]
      exact second.alone c hc u other

/-- **What a series of moves comes to.** -/
theorem Moves.effect (moves : Moves t e changes e') (coherent : e.Coherent) :
    Effect t e changes e' := by
  induction moves with
  | refl => exact .refl coherent
  | step moves move ih => exact ih.trans (move.effect ih.coherent)

theorem Moves.one (move : Move t e changes e') : Moves t e changes e' :=
  .step .refl move

theorem Moves.trans (first : Moves t e changes e') (second : Moves t e' more e'') :
    Moves t e (changes ++ more) e'' := by
  induction second with
  | refl => rwa [List.append_nil]
  | step moves move ih => exact List.append_assoc .. ▸ ih.step move

/-- A series of moves after one that changes no row. -/
theorem Moves.after (first : Moves t e [] e') (second : Moves t e' more e'') :
    Moves t e more e'' :=
  first.trans second

end Engine

end Tablespace
