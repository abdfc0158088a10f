import Tablespace.Proofs.Pool.Change
import Tablespace.Proofs.Pool.Completion

/-!
# A tidy cache

A cache is **tidy** (`Engine.Tidy room`) if it holds no more pages than there is room
for, and a clean page in it is the page of the file, byte for byte. Coherence
(`Engine.Coherent`) speaks of rows only; the bytes of a clean page are the same
only because a page whose bytes are changed is marked at once, and because rows
that do not fit their columns are not let in.

A cache stays tidy when pages are fetched, for the page that makes room for
another one is thrown out before that one comes in. Which page that is, and
when there is none, is in `Engine.Missed`.
-/

namespace Tablespace

namespace Engine

variable {e e' : Engine} {t : TxnId} {p : PageId} {q : Page} {frame : Frame} {mode : LockMode}
  {f : HeapFile} {room : Nat}

/-- **A cache that keeps to its capacity and agrees with the files.** -/
structure Tidy (e : Engine) (room : Nat) : Prop where
  /-- There is room for so many pages. -/
  capacity : e.capacity = room
  /-- There are no more in the cache. -/
  within : e.cache.size ≤ room
  /-- A clean page is the page of the file. -/
  exact : ∀ p frame, e.frame? p = some frame → frame.page.dirtier = none → ¬e.Overrun p →
    e.readPage p = .ok frame.page

/-- **An engine that nobody has used is tidy**: its cache has no pages. -/
theorem tidy_of_start {c : Config} {volume : Volume} {catalog : Catalog}
    (h : start c volume catalog = .ok e) : e.Tidy c.capacity := by
  obtain rfl := eq_of_start h
  exact ⟨rfl, Nat.zero_le _, fun p frame there => by simp [frame?] at there⟩

/-- Pages enter and leave a tidy cache; a clean page that enters comes from its
file. -/
theorem Tidy.recache (tidy : e.Tidy room) {cache : Cache Frame} {loads : Nat}
    (within : cache.size ≤ room)
    (pages : ∀ p frame, cache.peek? p = some frame → frame.page.dirtier = none →
      e.frame? p = some frame ∨ e.readPage p = .ok frame.page) :
    Tidy { e with cache := cache, loads := loads } room where
  capacity := tidy.capacity
  within := within
  exact p frame there clean intact := by
    rcases pages p frame there clean with old | read
    · exact tidy.exact p frame old clean intact
    · exact read

/-- Locks are nothing to the cache. -/
theorem Tidy.relock (tidy : e.Tidy room) (locks : LockTable) :
    Tidy { e with locks := locks } room :=
  ⟨tidy.capacity, tidy.within, tidy.exact⟩

/-! ## Fetching -/

/-- The page that makes room was there. -/
theorem Tidy.erase (tidy : e.Tidy room) (victim : PageId) :
    Tidy { e with cache := e.cache.erase victim } room := by
  refine tidy.recache ?_ fun q frame there _ => .inl ?_
  · cases h : e.cache.peek? victim with
    | none => rw [Cache.erase_of_absent h]; exact tidy.within
    | some value =>
      have one := Cache.size_erase h
      have within := tidy.within
      omega
  · rw [Cache.peek?_erase] at there
    split at there
    · cases there
    · exact there

/-- **Making room** leaves a tidy cache tidy, and room for a page that is not
there. -/
theorem Tidy.makeRoom (tidy : e.Tidy room) (absent : e.frame? p = none) :
    ((makeRoom p).on e).2.Tidy room
      ∧ (((makeRoom p).on e).1 = .ok () → ((makeRoom p).on e).2.cache.size < room) := by
  rw [on_makeRoom_of_absent absent]
  split
  · cases oldest : e.cache.oldest? clean with
    | none =>
      rw [on_evict_of_none oldest]
      exact ⟨tidy, fun h => by cases h⟩
    | some victim =>
      rw [on_evict_of_some oldest]
      refine ⟨tidy.erase victim, fun _ => ?_⟩
      obtain ⟨value, there, -⟩ := Cache.oldest?_eq_some oldest
      have one := Cache.size_erase there
      have within := tidy.within
      dsimp only
      omega
  · rename_i few
    exact ⟨tidy, fun _ => tidy.capacity ▸ Nat.not_le.1 few⟩

/-- A page that is read comes into the cache as it is in its file. -/
theorem Tidy.keep (tidy : e.Tidy room) (absent : e.frame? p = none) (read : e.readPage p = .ok q)
    (few : e.cache.size < room) : (e.keep q).Tidy room := by
  have id := (of_readPage read).1
  refine tidy.recache ?_ fun r frame there _ => ?_
  · rw [Cache.size_insert_of_none (id ▸ absent)]
    exact few
  · rw [Cache.peek?_insert] at there
    split at there
    · rename_i same
      cases there
      exact .inr (same.trans id ▸ read)
    · exact .inl there

/-- **Loading a page** leaves a tidy cache tidy. -/
theorem Tidy.load (tidy : e.Tidy room) (p : PageId) : ((load p).on e).2.Tidy room := by
  cases there : e.frame? p with
  | some frame =>
    rw [on_load_of_frame there]
    refine tidy.recache ?_ fun r frame' here _ => .inl ?_
    · rw [Cache.size_insert_of_some there]
      exact tidy.within
    · rw [Cache.peek?_insert] at here
      split at here
      · rename_i same
        cases here
        exact same ▸ there
      · exact here
  | none =>
    obtain ⟨tidy', few⟩ := tidy.makeRoom there
    rw [on_load_of_absent there]
    cases made : (Engine.makeRoom p).on e with | mk outcome roomy =>
    rw [made] at tidy' few
    obtain ⟨cache, rfl, pages, -⟩ := peek?_makeRoom made
    cases outcome with
    | error halt => exact tidy'
    | ok _ =>
      dsimp only
      cases read : readPage { e with cache := cache } p with
      | error cause => exact tidy'
      | ok d =>
        have absent : frame? { e with cache := cache } p = none := by
          rcases pages p with same | ⟨gone, -⟩
          · exact same.trans there
          · exact gone
        exact tidy'.keep absent read (few rfl)

/-- **Fetching a page** leaves a tidy cache tidy. -/
theorem Tidy.fetch (tidy : e.Tidy room) (t : TxnId) (p : PageId) (mode : LockMode) :
    ((fetch t p mode).on e).2.Tidy room := by
  unfold Engine.fetch
  rw [Turn.on_bind, on_lock]
  cases (e.locks.request t p mode).1 with
  | granted => exact (tidy.relock _).load p
  | blocked => exact tidy.relock _
  | deadlock holder => exact tidy.relock _

/-! ## Misses -/

/-- What a load brings into the cache, if it answers. -/
def broughtIn (p : PageId) (load : Nat) : Except Halt Page → List (PageId × Frame)
  | .ok q => [(p, ⟨q, load⟩)]
  | .error _ => []

/-- **What a miss in a full cache comes to.** -/
structure Missed (e : Engine) (p : PageId) (outcome : Except Halt Page) (e' : Engine) : Prop where
  /-- There is no room to be made exactly if all pages are dirty. -/
  full : outcome = .error (.fault .poolFull)
    ↔ ∀ entry ∈ e.cache.entries, entry.2.page.isDirty = true
  /-- Nothing is thrown out then. -/
  untouched : outcome = .error (.fault .poolFull) → e'.cache = e.cache
  /-- Else the oldest clean page is thrown out, and the page fetched comes in
  as the newest, if it can be read; nothing else changes. -/
  evicted : outcome ≠ .error (.fault .poolFull) →
    ∃ older victim newer, e.cache.entries = older ++ victim :: newer
      ∧ (∀ entry ∈ older, entry.2.page.isDirty = true) ∧ victim.2.page.isDirty = false
      ∧ e'.cache.entries = older ++ newer ++ broughtIn p e.loads outcome

/-- A page is clean or dirty. -/
theorem clean_eq_false_iff {frame : Frame} : clean frame = false ↔ frame.page.isDirty = true := by
  simp [clean]

/-- **A miss in a full cache.** -/
theorem missed_load (absent : e.frame? p = none) (full : e.capacity ≤ e.cache.size) :
    Missed e p ((load p).on e).1 ((load p).on e).2 := by
  rw [on_load_of_absent absent, on_makeRoom_of_absent absent, if_pos full]
  cases oldest : e.cache.oldest? clean with
  | none =>
    have dirty := Cache.oldest?_eq_none_iff.1 oldest
    simp only [clean_eq_false_iff] at dirty
    rw [on_evict_of_none oldest]
    exact ⟨iff_of_true rfl dirty, fun _ => rfl, fun h => absurd rfl h⟩
  | some victim =>
    obtain ⟨older, value, newer, split, before, wanted⟩ := Cache.oldest?_split oldest
    have left := Cache.entries_erase split
    simp only [clean_eq_false_iff] at before
    have tidy : value.page.isDirty = false := by simpa [clean] using wanted
    have some : ¬∀ entry ∈ e.cache.entries, entry.2.page.isDirty = true := fun all => by
      have dirty := all (victim, value) (split ▸ List.mem_append_right _ List.mem_cons_self)
      rw [tidy] at dirty
      cases dirty
    have same : readPage { e with cache := e.cache.erase victim } p = e.readPage p := rfl
    rw [on_evict_of_some oldest]
    dsimp only
    rw [same]
    cases read : e.readPage p with
    | error cause =>
      have other : (.error (.fault cause) : Except Halt Page) ≠ .error (.fault .poolFull) :=
        fun h => readPage_ne_poolFull (Halt.fault.inj (Except.error.inj h) ▸ read)
      exact ⟨iff_of_false other some, fun h => absurd h other,
        fun _ => ⟨older, (victim, value), newer, split, before, tidy,
          left.trans (List.append_nil _).symm⟩⟩
    | ok d =>
      refine ⟨iff_of_false (fun h => by cases h) some, (fun h => by cases h),
        fun _ => ⟨older, (victim, value), newer, split, before, tidy, ?_⟩⟩
      -- the page was not there before, so it comes behind all others
      have gone : (e.cache.erase victim).peek? p = none := by
        rw [Cache.peek?_erase]
        split
        · rfl
        · exact absent
      show ((e.cache.erase victim).insert d.id ⟨d, e.loads⟩).entries = _
      rw [(of_readPage read).1, Cache.entries_insert, Cache.erase_of_absent gone, left]
      rfl

/-- **A miss in a full cache**, for a page that nobody stands in the way of. -/
theorem missed_fetch (granted : (e.locks.request t p mode).1 = .granted)
    (absent : e.frame? p = none) (full : e.capacity ≤ e.cache.size) :
    Missed e p ((fetch t p mode).on e).1 ((fetch t p mode).on e).2 := by
  have missed : Missed { e with locks := (e.locks.request t p mode).2 } p _ _ :=
    missed_load absent full
  unfold fetch
  rw [Turn.on_bind, on_lock, granted]
  exact ⟨missed.full, missed.untouched, missed.evicted⟩

/-! ## Changing a page and marking it -/

/-- **A page that was changed and is not marked yet**, in a cache that was
tidy. -/
def Unmarked (room : Nat) (q : Page) (e' : Engine) : Prop :=
  ∃ (e : Engine) (frame : Frame), e.Tidy room ∧ e.frame? q.id = some frame ∧ e' = e.alter q

/-- A page that was changed can be marked, for it is still there. -/
theorem Unmarked.on_install (unmarked : Unmarked room q e) (t : TxnId) :
    ((install t q).on e).1 = .ok () := by
  obtain ⟨e, frame, -, there, rfl⟩ := unmarked
  rw [on_install_alter t there]

/-- **Marking a changed page** makes the cache tidy again. -/
theorem Unmarked.install (unmarked : Unmarked room q e) (t : TxnId) :
    ((install t q).on e).2.Tidy room := by
  obtain ⟨e, frame, tidy, there, rfl⟩ := unmarked
  have now := frame?_alter (q := q) there
  rw [on_install_alter t there]
  refine tidy.recache ?_ fun r g here clean => .inl ?_
  · rw [Cache.size_insert_of_some ((now q.id).trans (if_pos rfl)), alter, Cache.size_modify]
    exact tidy.within
  · rw [Cache.peek?_insert] at here
    split at here
    · cases here
      cases clean
    · rename_i other
      exact ((now r).trans (if_neg other)).symm.trans here

/-- A page that is put into its own place changes nothing. -/
theorem Tidy.alter (tidy : e.Tidy room) (there : e.frame? q.id = some frame)
    (same : frame.page = q) :
    (e.alter q).Tidy room := by
  refine tidy.recache ?_ fun r g here _ => .inl ?_
  · rw [Cache.size_modify]
    exact tidy.within
  · have now : (e.alter q).frame? r = _ := frame?_alter there r
    rw [show (e.alter q).frame? r = some g from here] at now
    split at now
    · rename_i named
      subst same
      rw [named, there, now]
    · exact now.symm

/-- **What a change comes to in a tidy cache.** -/
def Changed {α : Type} (room : Nat) (page? : α → Option Page) : Except Halt α × Engine → Prop
  | (.ok a, e') => match page? a with
    | some q => Unmarked room q e'
    | none => e'.Tidy room
  | (.error _, e') => e'.Tidy room

/-- **Deleting a row** leaves one page unmarked, or a tidy cache. -/
theorem Tidy.deleteAt (tidy : e.Tidy room) (coherent : e.Coherent) (t : TxnId) (row : Tuple)
    (record : RecordId) : Changed room some ((deleteAt t row record).on e) := by
  have fetched' := tidy.fetch t record.page .exclusive
  rw [on_deleteAt]
  cases fetched : (Engine.fetch t record.page .exclusive).on e with | mk outcome e₁ =>
  rw [fetched] at fetched'
  cases outcome with
  | error halt => exact fetched'
  | ok p =>
    obtain ⟨looks, -, -, frame, there, rfl⟩ := fetch_ok coherent fetched
    have id := (looks.moves.effect coherent).coherent.id_of_frame there
    dsimp only
    cases deleted : frame.page.delete row with
    | error cause => exact fetched'.alter (id ▸ there) rfl
    | ok q =>
      obtain ⟨-, -, -, -, -, same, -⟩ := Page.delete_ok deleted
      exact ⟨e₁, frame, fetched', (same.id.trans id).symm ▸ there, rfl⟩

/-! ## The end of a transaction -/

section End

variable (tidy : e.Tidy room) (coherent : e.Coherent) (there : e.frame? p = some frame)

include tidy coherent there

/-- **Writing a page back** leaves it in the cache as it is in the file then. -/
theorem Tidy.writeBack : ((writeBack p).on e).2.Tidy room := by
  obtain ⟨d, read, -⟩ := coherent.cached p frame there
  obtain ⟨f, file, -⟩ := file_of_readPage read
  rw [coherent.on_writeBack there file]
  refine ⟨tidy.capacity, ?_, fun q g here clean intact => ?_⟩
  · show (e.cache.modify p _).size ≤ room
    rw [Cache.size_modify]
    exact tidy.within
  · rw [frame?_wroteBack there] at here
    rw [coherent.readPage_wroteBack there file]
    split at here
    · rename_i same
      cases here
      rw [if_pos same]
    · rename_i other
      rw [if_neg other]
      exact tidy.exact q g here clean fun hit => intact (coherent.overrun_wroteBack there file hit)

/-- **Reading a page again** leaves it in the cache as it is in the file. -/
theorem Tidy.restorePage : ((restorePage p).on e).2.Tidy room := by
  obtain ⟨d, read, -⟩ := coherent.cached p frame there
  rw [on_restorePage read]
  refine tidy.recache ?_ fun q g here _ => ?_
  · have gone : (e.cache.erase p).peek? d.id = none := by
      rw [Cache.peek?_erase, if_pos (of_readPage read).1]
    show ((e.cache.erase p).insert d.id ⟨d, e.loads⟩).size ≤ room
    rw [Cache.size_insert_of_none gone, Cache.size_erase there]
    exact tidy.within
  · have now := frame?_restored read q
    rw [show ((e.discard p).keep d).frame? q = some g from here] at now
    split at now
    · rename_i same
      cases now
      exact .inr (same ▸ read)
    · exact .inl now.symm

end End

/-- Writing pages back leaves a tidy cache tidy. -/
theorem Tidy.forM_writeBack (pages : List PageId) (tidy : e.Tidy room) (coherent : e.Coherent)
    (there : ∀ p ∈ pages, ∃ frame, e.frame? p = some frame) :
    ((pages.forM Engine.writeBack).on e).2.Tidy room := by
  induction pages generalizing e with
  | nil => exact tidy
  | cons p pages ih =>
    obtain ⟨frame, here⟩ := there p List.mem_cons_self
    have first := tidy.writeBack coherent here
    obtain ⟨e₁, written, settled, -⟩ := writeBack_spec coherent here
    have run : (p :: pages).forM Engine.writeBack
        = Engine.writeBack p >>= fun _ => pages.forM Engine.writeBack := rfl
    rw [written] at first
    rw [run, Turn.on_bind_ok written]
    exact ih first settled.coherent fun q hq =>
      settled.there q (there q (List.mem_cons_of_mem _ hq))

/-- Reading pages again leaves a tidy cache tidy. -/
theorem Tidy.restoreAll (pages : List PageId) (tidy : e.Tidy room) (coherent : e.Coherent)
    (there : ∀ p ∈ pages, ∃ frame, e.frame? p = some frame) :
    ((restoreAll pages).on e).2.Tidy room := by
  induction pages generalizing e with
  | nil => exact tidy
  | cons p pages ih =>
    obtain ⟨frame, here⟩ := there p List.mem_cons_self
    have first := tidy.restorePage coherent here
    obtain ⟨e₁, read, settled, -⟩ := restorePage_spec coherent here
    rw [read] at first
    rw [Engine.restoreAll, Turn.on_ofFn, read]
    exact ih first settled.coherent fun q hq =>
      settled.there q (there q (List.mem_cons_of_mem _ hq))

/-- **Ending a transaction** leaves a tidy cache tidy. -/
theorem Tidy.complete (tidy : e.Tidy room) (coherent : e.Coherent) (t : TxnId) (committed : Bool) :
    ((if committed then commit t else abort t).on e).2.Tidy room := by
  have there : ∀ p ∈ e.cache.pagesWith (dirtyFor t), ∃ frame, e.frame? p = some frame :=
    fun p hp => (mem_pagesWith_dirtyFor.1 hp).imp fun _ => And.left
  cases committed with
  | true =>
    obtain ⟨e', flushed, -, -⟩ := forM_writeBack_spec _ coherent there
    have tidy' := tidy.forM_writeBack _ coherent there
    have run : (flushPages t).on e = (.ok (), e') := flushed
    rw [flushed] at tidy'
    rw [if_pos rfl, commit, Turn.on_ofFn, run]
    exact tidy'.relock _
  | false =>
    have tidy' : ((restorePages t).on e).2.Tidy room := tidy.restoreAll _ coherent there
    rw [if_neg Bool.false_ne_true, abort, Turn.on_ofFn]
    exact tidy'.relock _

end Engine

end Tablespace
