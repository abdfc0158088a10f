import Tablespace.Proofs.Engine.Move
import Tablespace.Proofs.Turn

/-!
# What a fetch does

To lock a page and to look at it changes no row and no file
(`Engine.Looks`). A fetch that answers gives the page that was seen before it
(`Engine.fetch_ok`), and leaves it in the cache. A fetch that is cut short has
taken at most the lock (`Engine.fetch_error`), and none if another transaction
stands in its way (`Engine.fetch_of_blocked`).
-/

namespace Tablespace

namespace Engine

variable {e e' e'' : Engine} {t u : TxnId} {p : PageId} {q : Page} {mode : LockMode} {halt : Halt}

/-- **What a transaction does that only looks**: no row and no file changes,
and no page that it holds is given up. -/
structure Looks (t : TxnId) (e e' : Engine) : Prop where
  moves : Moves t e [] e'
  volume : e'.volume = e.volume
  held : ∀ p, e.locks.mode? t p ≠ none → e'.locks.mode? t p ≠ none

theorem Looks.refl (t : TxnId) (e : Engine) : Looks t e e :=
  ⟨.refl, rfl, fun _ => id⟩

theorem Looks.trans (first : Looks t e e') (second : Looks t e' e'') : Looks t e e'' :=
  ⟨first.moves.after second.moves, second.volume.trans first.volume,
    fun p h => second.held p (first.held p h)⟩

theorem Looks.catalog (looks : Looks t e e') (coherent : e.Coherent) : e'.catalog = e.catalog :=
  (looks.moves.effect coherent).catalog

theorem Looks.overrun_iff (looks : Looks t e e') (coherent : e.Coherent) :
    e'.Overrun p ↔ e.Overrun p :=
  overrun_congr (looks.catalog coherent) looks.volume

/-- **Looking shows nothing new.** -/
theorem Looks.seen_eq (looks : Looks t e e') (coherent : e.Coherent) {r : RecordId}
    (intact : ¬e.Overrun r.page) : e'.seen r = e.seen r :=
  (looks.moves.effect coherent).seen r fun hit => intact ((looks.overrun_iff coherent).1 hit)

/-! ## Making room -/

/-- There is no room to be made if all pages are dirty. -/
theorem on_evict_of_none (h : e.cache.oldest? clean = none) :
    evict.on e = (.error (.fault .poolFull), e) := by
  rw [evict, Turn.on_bind_ok (Turn.on_get e), h]
  rfl

/-- The oldest clean page makes room. -/
theorem on_evict_of_some {victim : PageId} (h : e.cache.oldest? clean = some victim) :
    evict.on e = (.ok (), { e with cache := e.cache.erase victim }) := by
  rw [evict, Turn.on_bind_ok (Turn.on_get e), h]
  rfl

/-- Room is made by clean pages. -/
theorem peek?_evict {outcome : Except Halt Unit} (h : evict.on e = (outcome, e')) :
    ∃ cache : Cache Frame, e' = { e with cache := cache }
      ∧ (∀ q, cache.peek? q = e.frame? q
        ∨ cache.peek? q = none ∧ ∀ frame, e.frame? q = some frame → frame.page.dirtier = none)
      ∧ ∀ halt, outcome = .error halt → halt = .fault .poolFull := by
  cases oldest : e.cache.oldest? clean with
  | none =>
    rw [on_evict_of_none oldest] at h
    cases h
    exact ⟨e.cache, rfl, fun _ => .inl rfl, fun halt eq => by cases eq; rfl⟩
  | some victim =>
    rw [on_evict_of_some oldest] at h
    cases h
    refine ⟨e.cache.erase victim, rfl, fun q => ?_, fun halt eq => by cases eq⟩
    rw [Cache.peek?_erase]
    split
    · rename_i same
      subst same
      refine .inr ⟨rfl, fun frame there => ?_⟩
      obtain ⟨value, found, wanted⟩ := Cache.oldest?_eq_some oldest
      rw [frame?, found] at there
      cases there
      simpa [clean, Page.isDirty] using wanted
    · exact .inl rfl

theorem peek?_makeRoom {outcome : Except Halt Unit} (h : (makeRoom p).on e = (outcome, e')) :
    ∃ cache : Cache Frame, e' = { e with cache := cache }
      ∧ (∀ q, cache.peek? q = e.frame? q
        ∨ cache.peek? q = none ∧ ∀ frame, e.frame? q = some frame → frame.page.dirtier = none)
      ∧ ∀ halt, outcome = .error halt → halt = .fault .poolFull := by
  rw [makeRoom, Turn.on_bind_ok (Turn.on_get e)] at h
  split at h
  · exact peek?_evict h
  · cases h
    exact ⟨e.cache, rfl, fun _ => .inl rfl, fun halt eq => by cases eq⟩

/-- **Room is made in a full cache** for a page that is not there. -/
theorem on_makeRoom_of_absent (h : e.frame? p = none) :
    (makeRoom p).on e = if e.capacity ≤ e.cache.size then evict.on e else (.ok (), e) := by
  have absent : e.cache.contains p = false := by
    rw [Cache.contains_eq_isSome, ← frame?, h]
    rfl
  rw [makeRoom, Turn.on_bind_ok (Turn.on_get e), absent, Bool.not_false, Bool.true_and]
  simp only [decide_eq_true_eq]
  split <;> rfl

/-- No room has to be made for a page that is there. -/
theorem on_makeRoom_of_frame {frame : Frame} (h : e.frame? p = some frame) :
    (makeRoom p).on e = (.ok (), e) := by
  have there : e.cache.contains p = true := by
    rw [Cache.contains_eq_isSome, ← frame?, h]
    rfl
  rw [makeRoom, Turn.on_bind_ok (Turn.on_get e), there]
  rfl

/-- What stays or makes room is recached. -/
theorem recached_of_room {cache : Cache Frame}
    (h : ∀ q, cache.peek? q = e.frame? q
      ∨ cache.peek? q = none ∧ ∀ frame, e.frame? q = some frame → frame.page.dirtier = none)
    (q : PageId) : e.Recached q (cache.peek? q) := by
  rcases h q with same | ⟨gone, clean⟩
  · rw [same]
    cases there : e.frame? q with
    | none => exact .absent fun frame h => by rw [there] at h; cases h
    | some frame => exact .kept frame frame there (.refl _) fun _ => rfl
  · rw [gone]
    exact .absent clean

/-- A move in the cache is a look. -/
theorem looks_recache {cache : Cache Frame} {loads : Nat}
    (pages : ∀ p, e.Recached p (cache.peek? p)) :
    Looks t e { e with cache := cache, loads := loads } :=
  ⟨.one (.recache cache loads pages), rfl, fun _ => id⟩

/-! ## Loading -/

/-- A page that is in the cache is given as it is there. -/
theorem on_load_of_frame {frame : Frame} (there : e.frame? p = some frame) :
    (load p).on e = (.ok frame.page, { e with cache := e.cache.insert p frame }) := by
  have got : e.cache.get? p = some (frame, e.cache.insert p frame) := by
    rw [Cache.get?, ← frame?, there]
    rfl
  rw [load, Turn.on_bind_ok (Turn.on_get e), got]
  rfl

/-- A page that is not in the cache is read, once there is room for it. -/
theorem on_load_of_absent (absent : e.frame? p = none) :
    (load p).on e = match (makeRoom p).on e with
      | (.error halt, roomy) => (.error halt, roomy)
      | (.ok _, roomy) =>
        match roomy.readPage p with
        | .error cause => (.error (.fault cause), roomy)
        | .ok d => (.ok d, roomy.keep d) := by
  have got : e.cache.get? p = none := by
    rw [Cache.get?, ← frame?, absent]
    rfl
  rw [load, Turn.on_bind_ok (Turn.on_get e), got]
  dsimp only
  cases room : (makeRoom p).on e with | mk outcome roomy =>
  cases outcome with
  | error halt => rw [Turn.on_bind_error room]
  | ok _ =>
    rw [Turn.on_bind_ok room, Turn.on_bind_ok (Turn.on_get _)]
    dsimp only
    cases roomy.readPage p with
    | error cause => rw [Turn.on_bind_error (Turn.on_ofExcept_error _ _)]
    | ok d =>
      rw [Turn.on_bind_ok (Turn.on_ofExcept_ok _ _)]
      rfl

/-- To touch a page is a look. -/
theorem looks_touch {frame : Frame} (there : e.frame? p = some frame) :
    Looks t e { e with cache := e.cache.insert p frame } := by
  refine looks_recache fun q => ?_
  rw [Cache.peek?_insert]
  split
  · rename_i same
    subst same
    exact .kept frame frame there (.refl _) fun _ => rfl
  · exact recached_of_room (fun _ => .inl rfl) q

/-- To put a page into the cache that was read is a look. -/
theorem looks_keep {d : Page} (absent : e.frame? p = none) (read : e.readPage p = .ok d) :
    Looks t e (e.keep d) := by
  refine looks_recache fun q => ?_
  rw [Cache.peek?_insert, (of_readPage read).1]
  split
  · rename_i same
    subst same
    exact .loaded ⟨d, e.loads⟩ absent read
  · exact recached_of_room (fun _ => .inl rfl) q

/-- **A load that answers** gives the page that is seen, and leaves it in the
cache. -/
theorem load_ok (t : TxnId) (h : (load p).on e = (.ok q, e')) :
    Looks t e e' ∧ e'.locks = e.locks ∧ e.pageSeen p = .ok q
      ∧ ∃ frame, e'.frame? p = some frame ∧ frame.page = q := by
  cases there : e.frame? p with
  | some frame =>
    rw [on_load_of_frame there] at h
    cases h
    exact ⟨looks_touch there, rfl, pageSeen_of_frame there, frame,
      Cache.peek?_insert.trans (if_pos rfl), rfl⟩
  | none =>
    rw [on_load_of_absent there] at h
    cases room : (makeRoom p).on e with | mk outcome roomy =>
    rw [room] at h
    obtain ⟨cache, rfl, pages, -⟩ := peek?_makeRoom room
    cases outcome with
    | error halt => cases h
    | ok _ =>
      dsimp only at h
      cases read : readPage { e with cache := cache } p with
      | error cause => rw [read] at h; cases h
      | ok d =>
        rw [read] at h
        cases h
        -- making room has not brought the page in
        have absent : frame? { e with cache := cache } p = none := by
          rcases pages p with same | ⟨gone, -⟩
          · exact same.trans there
          · exact gone
        exact ⟨(looks_recache (recached_of_room pages)).trans (looks_keep absent read), rfl,
          (pageSeen_of_absent there).trans read, ⟨q, e.loads⟩,
          Cache.peek?_insert.trans (if_pos (of_readPage read).1.symm), rfl⟩

/-- A load that is cut short has at most made room; it never waits. -/
theorem load_error (t : TxnId) (h : (load p).on e = (.error halt, e')) :
    Looks t e e' ∧ e'.locks = e.locks ∧ ∃ cause, halt = .fault cause ∧ cause ≠ .noSuchElement := by
  cases there : e.frame? p with
  | some frame => rw [on_load_of_frame there] at h; cases h
  | none =>
    rw [on_load_of_absent there] at h
    cases room : (makeRoom p).on e with | mk outcome roomy =>
    rw [room] at h
    obtain ⟨cache, rfl, pages, faults⟩ := peek?_makeRoom room
    have looks : Looks t e { e with cache := cache } := looks_recache (recached_of_room pages)
    cases outcome with
    | error halt' =>
      cases h
      exact ⟨looks, rfl, .poolFull, faults _ rfl, by simp⟩
    | ok _ =>
      dsimp only at h
      cases read : readPage { e with cache := cache } p with
      | error cause =>
        rw [read] at h
        cases h
        exact ⟨looks, rfl, cause, rfl, fun eq => readPage_ne_error (eq ▸ read)⟩
      | ok d => rw [read] at h; cases h

/-! ## Locking -/

theorem on_lock (e : Engine) :
    (onLocks (LockTable.acquire t p mode)).on e
      = (match (e.locks.request t p mode).1 with
        | .granted => .ok ()
        | .blocked => .error .wait
        | .deadlock holder => .error (.fault (.deadlock t holder)),
        { e with locks := (e.locks.request t p mode).2 }) :=
  rfl

/-- **A request for a lock is a look.** -/
theorem looks_request (coherent : e.Coherent) :
    Looks t e { e with locks := (e.locks.request t p mode).2 } := by
  by_cases granted : (e.locks.request t p mode).1 = .granted
  · have modes : (e.locks.request t p mode).2.mode?
        = LockModes.set e.locks.mode? t p (some (LockMode.join (e.locks.mode? t p) mode)) :=
      LockTable.mode?_request_of_granted granted
    refine ⟨.one (.relock _ coherent.locks.request (fun u q other => ?_) fun q dirty => ?_), rfl,
      fun q held => ?_⟩
    · rw [modes, LockModes.set, if_neg fun h => other h.1]
    · rw [modes, LockModes.set]
      split
      · rename_i same
        rw [same.2, coherent.owned t p (same.2 ▸ dirty)]
        rfl
      · rfl
    · show (e.locks.request t p mode).2.mode? t q ≠ none
      rw [modes, LockModes.set]
      split
      · simp
      · exact held
  · have modes := LockTable.mode?_request_of_not_granted granted
    refine ⟨.one (.relock _ coherent.locks.request (fun u q _ => ?_) fun q _ => ?_), rfl,
      fun q held => ?_⟩
    · rw [modes]
    · rw [modes]
    · show (e.locks.request t p mode).2.mode? t q ≠ none
      rwa [modes]

/-- **A fetch that answers** has taken the lock and gives the page that was
seen. -/
theorem fetch_ok (coherent : e.Coherent) (h : (fetch t p mode).on e = (.ok q, e')) :
    Looks t e e'
      ∧ e'.locks.mode?
        = LockModes.set e.locks.mode? t p (some (LockMode.join (e.locks.mode? t p) mode))
      ∧ e.pageSeen p = .ok q ∧ ∃ frame, e'.frame? p = some frame ∧ frame.page = q := by
  unfold fetch at h
  rw [Turn.on_bind, on_lock] at h
  cases answer : (e.locks.request t p mode).1 with
  | granted =>
    rw [answer] at h
    obtain ⟨looks, locks, seen, there⟩ := load_ok t h
    refine ⟨(looks_request coherent).trans looks, ?_, seen, there⟩
    rw [locks]
    exact LockTable.mode?_request_of_granted answer
  | blocked => rw [answer] at h; cases h
  | deadlock holder => rw [answer] at h; cases h

/-- **A fetch that is cut short** has looked. -/
theorem fetch_error (coherent : e.Coherent) (h : (fetch t p mode).on e = (.error halt, e')) :
    Looks t e e' ∧ halt ≠ .fault .noSuchElement := by
  unfold fetch at h
  rw [Turn.on_bind, on_lock] at h
  cases answer : (e.locks.request t p mode).1 with
  | granted =>
    rw [answer] at h
    obtain ⟨looks, -, cause, rfl, other⟩ := load_error t h
    exact ⟨(looks_request coherent).trans looks, fun eq => other (Halt.fault.inj eq)⟩
  | blocked => rw [answer] at h; cases h; exact ⟨looks_request coherent, by simp⟩
  | deadlock holder => rw [answer] at h; cases h; exact ⟨looks_request coherent, by simp⟩

/-- **A fetch that another transaction stands in the way of** is cut short
before anything is done. -/
theorem fetch_of_blocked (blocked : ¬LockModes.Free e.locks.mode? t p mode) :
    ∃ halt locks, (fetch t p mode).on e = (.error halt, { e with locks := locks }) := by
  have refused : (e.locks.request t p mode).1 ≠ .granted := fun granted =>
    blocked (LockTable.request_granted_iff.1 granted)
  rw [fetch, Turn.on_bind, on_lock]
  cases answer : (e.locks.request t p mode).1 with
  | granted => exact absurd answer refused
  | blocked => exact ⟨_, _, rfl⟩
  | deadlock holder => exact ⟨_, _, rfl⟩

/-! ## Fetches one after another -/

/-- **What fetches do, one after another**: a relation of engines that every
fetch of a transaction keeps to, and that can be put together. -/
structure FetchClosed (t : TxnId) (R : Engine → Engine → Prop) : Prop where
  refl : ∀ e, R e e
  trans : ∀ e e' e'', R e e' → R e' e'' → R e e''
  fetch : ∀ p mode e, R e ((fetch t p mode).on e).2

theorem looks_fetch (coherent : e.Coherent) (t : TxnId) (p : PageId) (mode : LockMode) :
    Looks t e ((fetch t p mode).on e).2 := by
  cases fetched : (fetch t p mode).on e with | mk outcome e' =>
  cases outcome with
  | error halt => exact (fetch_error coherent fetched).1
  | ok q => exact (fetch_ok coherent fetched).1

/-- Fetches of a coherent engine are looks. -/
theorem fetchClosed_looks (t : TxnId) :
    FetchClosed t fun e e' => e.Coherent → Looks t e e' where
  refl e _ := .refl t e
  trans _ _ _ first second coherent :=
    have looks := first coherent
    looks.trans (second (looks.moves.effect coherent).coherent)
  fetch p mode _ coherent := looks_fetch coherent t p mode

end Engine

end Tablespace
