import Tablespace.Heap.Deletion
import Tablespace.Proofs.Page.Rows
import Tablespace.Proofs.Pool.Fetch

/-!
# Changing a page and marking it

A row is changed in two steps: the page in the cache is changed, and then it
is marked as changed by the transaction. Between the two the engine is not
coherent – the page counts as clean and holds a row that the file does not
hold (`Engine.Altered`). The mark makes a single move of the two
(`Engine.Altered.install`). A change that fails is no change of a row, and
needs no mark (`Engine.looks_alter`).

Deletion is the first use: it changes the row that it names, or nothing
(`Engine.deleteAt_ok`, `Engine.deleteAt_error`).
-/

namespace Tablespace

namespace Engine

variable {e e' : Engine} {t : TxnId} {p q : Page} {frame : Frame}

/-- The engine with a page of the cache as it is now, not marked. -/
def alter (e : Engine) (q : Page) : Engine :=
  { e with cache := e.cache.modify q.id fun frame => { frame with page := q } }

/-- **A page that a row was changed on and that is not marked yet.** -/
structure Altered (t : TxnId) (e : Engine) (c : Change) (q : Page) (e' : Engine) : Prop where
  /-- The page was in the cache. -/
  there : ∃ frame, e.frame? c.record.page = some frame ∧ frame.page.SameFrame q
    ∧ ∀ s, q.rowAt s = if s = c.record.slot.toNat then c.row else frame.page.rowAt s
  /-- It goes by its name. -/
  id : q.id = c.record.page
  /-- The transaction holds it. -/
  held : e.locks.mode? t c.record.page = some .exclusive
  /-- It is in the cache as it is now. -/
  after : e' = e.alter q

theorem frame?_alter (h : e.frame? q.id = some frame) (r : PageId) :
    (e.alter q).frame? r = if r = q.id then some { frame with page := q } else e.frame? r := by
  rw [alter, frame?, Cache.peek?_modify]
  split
  · rename_i same
    subst same
    rw [← frame?, h]
    rfl
  · rfl

/-- **Marking a page of the cache as changed** puts it into the place of the
page there. -/
theorem on_install_alter (t : TxnId) (there : e.frame? q.id = some frame) :
    (install t q).on (e.alter q) = (.ok (),
      { e with cache := (e.alter q).cache.insert q.id ⟨q.markDirty (some t), frame.load⟩ }) := by
  have cached : (e.alter q).frame? q.id = some { frame with page := q } :=
    (frame?_alter there _).trans (if_pos rfl)
  have placed : (e.alter q).place (q.markDirty (some t))
      = { e with cache := (e.alter q).cache.insert q.id ⟨q.markDirty (some t), frame.load⟩ } := by
    unfold place
    rw [show (e.alter q).cache.peek? (q.markDirty (some t)).id = _ from cached]
    rfl
  rw [Engine.install, Turn.on_bind_ok (on_makeRoom_of_frame cached), Turn.on_modify, placed]

/-- **Marking a page as changed** makes one move of the change and the
mark. -/
theorem Altered.install {c : Change} (altered : Altered t e c q e') :
    ∃ e'', (install t q).on e' = (.ok (), e'') ∧ Moves t e [c] e'' ∧ e''.volume = e.volume := by
  obtain ⟨⟨frame, there, same, rows⟩, id, held, rfl⟩ := altered
  have now := frame?_alter (id ▸ there)
  refine ⟨_, on_install_alter t (id ▸ there), .one ?_, rfl⟩
  refine .store c frame ⟨q.markDirty (some t), frame.load⟩ _ there held ?_
    (fun r other => ?_) (same.toAlike.trans (q.alike_markDirty _)) rfl rows
  · rw [Cache.peek?_insert, if_pos id.symm]
  · rw [Cache.peek?_insert, if_neg (id ▸ other)]
    exact (now r).trans (if_neg (id ▸ other))

/-- A change of a page in the cache, by what it does to the page. -/
theorem on_change {α : Type} (f : Page → Except Fault α × Page) (id : (f p).2.id = p.id) :
    (change p f).on e = (match (f p).1 with
      | .ok a => .ok (a, (f p).2)
      | .error cause => .error (.fault cause), e.alter (f p).2) := by
  have now : ({ e with cache := e.cache.modify p.id fun frame => { frame with page := (f p).2 } }
      : Engine) = e.alter (f p).2 := by rw [alter, id]
  rw [change, Turn.on_bind_ok (Turn.on_modify _ _), now]
  cases (f p).1 with
  | ok a => rw [Turn.on_bind_ok (Turn.on_ofExcept_ok _ _)]; rfl
  | error cause => rw [Turn.on_bind_error (Turn.on_ofExcept_error _ _)]

/-- **A page that is changed without a change of its rows** is no news. -/
theorem looks_alter (there : e.frame? p.id = some frame) (page : frame.page = p)
    (same : p.SameFrame q) (rows : ∀ s, q.rowAt s = p.rowAt s) : Looks t e (e.alter q) := by
  have now := frame?_alter (q := q) (same.id ▸ there)
  refine looks_recache fun r => ?_
  have came : (e.alter q).frame? r = _ := now r
  rw [show (e.alter q).frame? r
    = (e.cache.modify q.id fun frame => { frame with page := q }).peek? r
    from rfl] at came
  rw [came]
  split
  · rename_i named
    subst named
    exact .kept frame _ (same.id ▸ there) (page ▸ same) fun s => page ▸ rows s
  · exact recached_of_room (fun _ => .inl rfl) r

/-! ## Deletion -/

variable {row : Tuple} {record : RecordId} {halt : Halt}

/-- **A deletion** takes the row out of the page that is fetched. -/
theorem on_deleteAt (t : TxnId) (row : Tuple) (record : RecordId) (e : Engine) :
    (deleteAt t row record).on e = match (fetch t record.page .exclusive).on e with
      | (.error halt, e₁) => (.error halt, e₁)
      | (.ok d, e₁) => match d.delete row with
        | .ok q => (.ok q, e₁.alter q)
        | .error cause => (.error (.fault cause), e₁.alter d) := by
  unfold deleteAt
  rw [Turn.on_bind]
  cases (fetch t record.page .exclusive).on e with | mk outcome e₁ =>
  cases outcome with
  | error halt => rfl
  | ok d =>
    dsimp only
    cases deleted : d.delete row with
    | error cause => rw [Turn.on_bind, on_change _ (by rw [deleted]), deleted]
    | ok q =>
      obtain ⟨-, -, -, -, -, same, -⟩ := Page.delete_ok deleted
      rw [Turn.on_bind, on_change _ (by rw [deleted]; exact same.id), deleted]
      rfl

/-- **A deletion that succeeds** empties the place of the row. -/
theorem deleteAt_ok (coherent : e.Coherent) (place : row.record = some record)
    (h : (deleteAt t row record).on e = (.ok q, e')) :
    ∃ e₁, Looks t e e₁ ∧ Altered t e₁ ⟨record, none⟩ q e' := by
  rw [on_deleteAt] at h
  cases fetched : (fetch t record.page .exclusive).on e with | mk outcome e₁ =>
  rw [fetched] at h
  cases outcome with
  | error halt => cases h
  | ok p =>
    obtain ⟨looks, modes, -, frame, there, rfl⟩ := fetch_ok coherent fetched
    have id := (looks.moves.effect coherent).coherent.id_of_frame there
    dsimp only at h
    cases deleted : frame.page.delete row with
    | error cause => rw [deleted] at h; cases h
    | ok p' =>
      obtain ⟨record', place', -, -, -, same, rows⟩ := Page.delete_ok deleted
      rw [place] at place'
      cases place'
      rw [deleted] at h
      cases h
      refine ⟨e₁, looks, ⟨frame, there, same, rows⟩, same.id.trans id, ?_, rfl⟩
      rw [modes, LockModes.set, if_pos ⟨rfl, rfl⟩, LockMode.join_exclusive]

/-- A deletion that is cut short has looked. -/
theorem deleteAt_error (coherent : e.Coherent)
    (h : (deleteAt t row record).on e = (.error halt, e')) : Looks t e e' := by
  rw [on_deleteAt] at h
  cases fetched : (fetch t record.page .exclusive).on e with | mk outcome e₁ =>
  rw [fetched] at h
  cases outcome with
  | error halt => cases h; exact (fetch_error coherent fetched).1
  | ok p =>
    obtain ⟨looks, -, -, frame, there, rfl⟩ := fetch_ok coherent fetched
    have id := (looks.moves.effect coherent).coherent.id_of_frame there
    dsimp only at h
    cases deleted : frame.page.delete row with
    | error cause =>
      rw [deleted] at h
      cases h
      exact looks.trans (looks_alter (id ▸ there) rfl (.refl _) fun _ => rfl)
    | ok p' => rw [deleted] at h; cases h

end Engine

end Tablespace
