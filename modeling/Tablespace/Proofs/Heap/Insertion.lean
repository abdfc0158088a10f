import Tablespace.Heap.Insertion
import Tablespace.Proofs.Pool.Change

/-!
# What an insertion does

An insertion looks through pages, gives back the locks of those that are
full, and appends pages, all of which changes no row. If it succeeds, then it
has changed one row on the page that it came to last
(`HeapFile.insertFrom_spec`).

It goes step by step: it tries a page, appends one, or counts the pages
(`HeapFile.leads_insertStep`). What every step preserves holds of an insertion
that goes on for any number of steps (`HeapFile.insertFrom_induction`).

An insertion knows the pages that it has looked through, and goes on knowing
them while it is set aside (`InsertionStage.Known`). If the last page of the file
is cut short, then the insertion fails at it, before it appends a page; so a page
that it appends leaves no gap (`InsertionStage.Known.leaves_no_gap`).
-/

namespace Tablespace

namespace Engine

variable {e e' : Engine} {t u : TxnId} {p : PageId} {q : Page} {f : HeapFile} {row stored : Tuple}
  {halt : Halt}

/-! ## One page -/

/-- **Giving a lock back** to what it was before a page was looked at. -/
theorem moves_giveBack {e₁ : Engine} (coherent : e.Coherent) (looks : Looks t e e₁)
    (p : PageId) : Moves t e [] (e₁.giveBack t p (e.locks.mode? t p)) := by
  have effect := looks.moves.effect coherent
  -- a page that the transaction has changed was held exclusive before, so its lock stays
  have clean : e.locks.mode? t p ≠ some .exclusive → ∀ r, e₁.DirtyFor t r → r ≠ p := by
    rintro weak r dirty rfl
    rcases (effect.dirty t r).1 dirty with dirty | ⟨-, _, none, -⟩
    · exact weak (coherent.owned t r dirty)
    · cases none
  cases before : e.locks.mode? t p with
  | none =>
    refine looks.moves.after (.one (.relock _ effect.coherent.locks.release
      (fun u r other => ?_) fun r dirty => ?_))
    · rw [LockTable.mode?_release, LockModes.set, if_neg fun h => other h.1]
    · have other := clean (by simp [before]) r dirty
      rw [LockTable.mode?_release, LockModes.set, if_neg fun h => other h.2]
  | some mode =>
    cases mode with
    | exclusive => exact looks.moves
    | shared =>
      refine looks.moves.after (.one (.relock _ effect.coherent.locks.downgrade
        (fun u r other => ?_) fun r dirty => ?_)) <;> rw [LockTable.mode?_downgrade]
      · split
        · rw [LockModes.set, if_neg fun h => other h.1]
        · rfl
      · have other := clean (by simp [before]) r dirty
        split
        · rw [LockModes.set, if_neg fun h => other h.2]
        · rfl

/-- **Trying a page** puts the row into the page that is fetched, if it has a
free slot. -/
theorem on_tryInsert (t : TxnId) (row : Tuple) (p : PageId) (e : Engine) :
    (tryInsert t row p).on e = match (fetch t p .exclusive).on e with
      | (.error halt, e₁) => (.error halt, e₁)
      | (.ok d, e₁) =>
        if d.hasFreeSlot then
          (match (d.insert row).1 with
            | .ok stored => .ok (some (stored, (d.insert row).2))
            | .error cause => .error (.fault cause), e₁.alter (d.insert row).2)
        else (.ok none, e₁.giveBack t p (e.locks.mode? t p)) := by
  unfold tryInsert
  rw [Turn.on_bind_ok (Turn.on_get e), Turn.on_bind]
  cases (fetch t p .exclusive).on e with | mk outcome e₁ =>
  cases outcome with
  | error halt => rfl
  | ok d =>
    dsimp only
    split
    · rw [Turn.on_bind, on_change _ (d.id_insert row)]
      cases (d.insert row).1 <;> rfl
    · rfl

/-- **What trying a page comes to**: a row in the page, which is not marked, or
nothing but looks. A page that is passed over is one of the file. -/
def Tried (f : HeapFile) (t : TxnId) (row : Tuple) (p : PageId) (e : Engine) :
    Except Halt (Option (Tuple × Page)) × Engine → Prop
  | (.ok (some (stored, q)), e') =>
    ∃ e₁ record, Moves t e [] e₁ ∧ e₁.volume = e.volume ∧ record.page = p
      ∧ stored = row.located (some record)
      ∧ Altered t e₁ ⟨record, some (f.schema.keep row.values)⟩ q e'
  | (.ok none, e') => (Moves t e [] e' ∧ e'.volume = e.volume) ∧ p.number.toNat < f.pages e.volume
  | (.error _, e') => Moves t e [] e' ∧ e'.volume = e.volume

variable (t row) in
/-- **Trying a page** stores the row, or gives the lock back. -/
theorem tryInsert_spec (coherent : e.Coherent) (file : e.catalog.file p.table = .ok f) :
    Tried f t row p e ((tryInsert t row p).on e) := by
  rw [on_tryInsert]
  cases fetched : (fetch t p .exclusive).on e with | mk outcome e₁ =>
  cases outcome with
  | error halt =>
    have looks := (fetch_error coherent fetched).1
    exact ⟨looks.moves, looks.volume⟩
  | ok d =>
    obtain ⟨looks, modes, seen, frame, there, rfl⟩ := fetch_ok coherent fetched
    have id := (looks.moves.effect coherent).coherent.id_of_frame there
    obtain ⟨d, read, alike⟩ := coherent.alike_of_pageSeen seen
    rw [readPage_of_file file] at read
    dsimp only
    split
    · cases inserted : frame.page.insert row with | mk result p' =>
      cases result with
      | error cause =>
        -- bytes may have been written, but no row has been changed
        obtain ⟨same, rows⟩ := Page.insert_error inserted
        have all := looks.trans (looks_alter (id ▸ there) rfl same rows)
        exact ⟨all.moves, all.volume⟩
      | ok stored =>
        obtain ⟨slot, -, -, place, same, rows⟩ := Page.insert_ok inserted
        obtain ⟨-, image, size, -, rfl⟩ := HeapFile.readPage_eq_ok_iff.1 read
        -- the page keeps the row as the columns of the file do
        have schema : frame.page.schema = f.schema := alike.schema
        rw [schema] at rows
        refine ⟨e₁, ⟨p, slot⟩, looks.moves, looks.volume, rfl, id ▸ place,
          ⟨frame, there, same, rows⟩, same.id.trans id, ?_, rfl⟩
        rw [modes, LockModes.set, if_pos ⟨rfl, rfl⟩, LockMode.join_exclusive]
    · refine ⟨⟨moves_giveBack coherent looks p, ?_⟩, (HeapFile.isOk_readPage_iff.1 ⟨d, read⟩).2⟩
      show (e₁.giveBack t p (e.locks.mode? t p)).volume = e.volume
      unfold giveBack
      split <;> exact looks.volume

/-- Trying a page leaves the catalog and the files alone. -/
theorem Tried.files {result : Except Halt (Option (Tuple × Page)) × Engine}
    (tried : Tried f t row p e result) (coherent : e.Coherent) :
    result.2.catalog = e.catalog ∧ result.2.volume = e.volume := by
  obtain ⟨outcome, e'⟩ := result
  cases outcome with
  | error halt => exact ⟨(tried.1.effect coherent).catalog, tried.2⟩
  | ok stored =>
    cases stored with
    | none => exact ⟨(tried.1.1.effect coherent).catalog, tried.1.2⟩
    | some stored =>
      obtain ⟨e₁, record, moves, volume, -, -, altered⟩ := tried
      rw [altered.after]
      exact ⟨(moves.effect coherent).catalog, volume⟩

variable (t row) in
/-- **A page with a free slot** is not passed over. -/
theorem tryInsert_of_free (coherent : e.Coherent) (seen : e.pageSeen p = .ok q)
    (free : q.hasFreeSlot = true) : ((tryInsert t row p).on e).1 ≠ .ok none := by
  rw [on_tryInsert]
  cases fetched : (fetch t p .exclusive).on e with | mk outcome e₁ =>
  cases outcome with
  | error halt => exact fun h => by cases h
  | ok d =>
    obtain ⟨-, -, seen', -⟩ := fetch_ok coherent fetched
    rw [seen] at seen'
    cases seen'
    dsimp only
    rw [if_pos free]
    cases (q.insert row).1 <;> exact fun h => by cases h

variable (row) in
/-- **A page that another transaction holds** is not tried. -/
theorem tryInsert_of_held (held : e.locks.mode? u p ≠ none) (other : u ≠ t) :
    ∃ halt locks, (tryInsert t row p).on e = (.error halt, { e with locks := locks }) := by
  obtain ⟨mode, h⟩ := Option.ne_none_iff_exists'.1 held
  have blocked : ¬LockModes.Free e.locks.mode? t p .exclusive := fun free => by
    have clash := free u mode other h
    cases mode <;> cases clash
  obtain ⟨halt, locks, fetched⟩ := fetch_of_blocked blocked
  refine ⟨halt, locks, ?_⟩
  rw [tryInsert, Turn.on_bind_ok (Turn.on_get e), Turn.on_bind_error fetched]

end Engine

/-! ## Page after page -/

namespace InsertionStage

variable {f : HeapFile} {v w : Volume} {stage full : InsertionStage} {next limit : Nat}
  {page : UInt32}

/-- The page that the insertion tries next, and where it comes to if that page
is full. -/
def tries? : InsertionStage → Option (UInt32 × InsertionStage)
  | scanning next limit =>
    if next < limit then some (UInt32.ofNat next, scanning (next + 1) limit) else none
  | appended page limit => some (page, counting limit)
  | counting _ => none

theorem tries?_of_lt (more : next < limit) : (scanning next limit).tries?
    = some (UInt32.ofNat next, scanning (next + 1) limit) :=
  if_pos more

/-- A page is tried in the course of a round, or after it was appended. -/
theorem cases_of_tries (tries : stage.tries? = some (page, full)) :
    (∃ next limit, next < limit ∧ stage = scanning next limit ∧ page = UInt32.ofNat next
        ∧ full = scanning (next + 1) limit)
      ∨ ∃ limit, stage = appended page limit ∧ full = counting limit := by
  cases stage with
  | scanning next limit =>
    rw [tries?] at tries
    split at tries
    · cases tries
      exact .inl ⟨next, limit, ‹_›, rfl, rfl, rfl⟩
    · cases tries
  | appended page limit =>
    cases tries
    exact .inr ⟨limit, rfl, rfl⟩
  | counting limit => cases tries

/-- All that an insertion can do next. -/
theorem trichotomy (stage : InsertionStage) : (∃ page full, stage.tries? = some (page, full))
    ∨ (∃ next limit, stage = scanning next limit ∧ ¬next < limit)
    ∨ ∃ limit, stage = counting limit := by
  cases stage with
  | scanning next limit =>
    by_cases more : next < limit
    · exact .inl ⟨_, _, tries?_of_lt more⟩
    · exact .inr (.inl ⟨next, limit, rfl, more⟩)
  | appended page limit => exact .inl ⟨page, .counting limit, rfl⟩
  | counting limit => exact .inr (.inr ⟨limit, rfl⟩)

/-- **The insertion is past its pages**: the next that it does is to append
one. -/
def Past : InsertionStage → Prop
  | scanning next limit => limit ≤ next
  | appended .. | counting _ => False

/-- **The insertion looks at pages of the file.** Those that it has looked at
are there in full; and if one is cut short, it is among those to be looked
at. -/
def Known (f : HeapFile) (v : Volume) : InsertionStage → Prop
  | scanning next limit =>
    next ≤ f.pages v ∧ limit ≤ f.count v ∧ limit < 4294967296
      ∧ (f.Whole v ∨ limit = (f.pageCount v).toNat)
  | appended page limit => page.toNat < f.pages v ∧ limit ≤ f.pages v ∧ limit < f.count v
  | counting limit => limit ≤ f.pages v ∧ limit < f.count v

/-- **How many steps an insertion takes at most** over a file of so many pages:
it looks at each page that is left, appends one and looks at that. -/
def need (count : Nat) : InsertionStage → Nat
  | scanning next limit => limit - next + 2
  | appended _ limit => count - limit + 4
  | counting limit => count - limit + 3

theorem Known.mono (known : stage.Known f v) (grown : f.Grown v w) : stage.Known f w := by
  have pages := grown.pages_le
  have count := grown.count_le.1
  cases stage with
  | scanning next limit =>
    obtain ⟨passed, counted, small, rest⟩ := known
    refine ⟨Nat.le_trans passed pages, Nat.le_trans counted count, small, ?_⟩
    rcases grown with same | ⟨-, whole, -⟩
    · rwa [HeapFile.whole_congr same, HeapFile.pageCount_congr same]
    · exact .inl whole
  | appended page limit =>
    exact ⟨Nat.lt_of_lt_of_le known.1 pages, Nat.le_trans known.2.1 pages,
      Nat.lt_of_lt_of_le known.2.2 count⟩
  | counting limit => exact ⟨Nat.le_trans known.1 pages, Nat.lt_of_lt_of_le known.2 count⟩

/-- An insertion that begins to count the pages knows those that it counts. -/
theorem known_counted (passed : limit ≤ f.pages v) :
    (scanning limit (f.pageCount v).toNat).Known f v := by
  refine ⟨passed, ?_, UInt32.toNat_lt _, .inr rfl⟩
  rw [HeapFile.toNat_pageCount]
  exact Nat.mod_le ..

/-- The insertion begins with what it knows. -/
theorem known_firstStage (e : Engine) : (f.firstStage e).Known f e.volume :=
  known_counted (Nat.zero_le _)

/-- The page that is tried is one of the file. -/
theorem Known.lt_count (known : stage.Known f v) (tries : stage.tries? = some (page, full)) :
    page.toNat < f.count v := by
  obtain ⟨next, limit, more, rfl, rfl, -⟩ | ⟨limit, rfl, -⟩ := cases_of_tries tries
  · obtain ⟨-, counted, small, -⟩ := known
    rw [UInt32.toNat_ofNat', Nat.mod_eq_of_lt (by omega)]
    omega
  · exact Nat.lt_of_lt_of_le known.1 HeapFile.pages_le_count.1

/-- **A page that was full** is known. -/
theorem Known.of_full (known : stage.Known f v) (tries : stage.tries? = some (page, full))
    (there : page.toNat < f.pages v) : full.Known f v := by
  obtain ⟨next, limit, more, rfl, rfl, rfl⟩ | ⟨limit, rfl, rfl⟩ := cases_of_tries tries
  · obtain ⟨-, counted, small, rest⟩ := known
    rw [UInt32.toNat_ofNat', Nat.mod_eq_of_lt (by omega)] at there
    exact ⟨there, counted, small, rest⟩
  · exact known.2

/-- **An insertion that has looked at all pages** leaves no gap when it appends
one. -/
theorem Known.leaves_no_gap (known : (scanning next limit).Known f v) (last : ¬next < limit) :
    (f.pageCount v).toNat ≤ f.pages v := by
  obtain ⟨passed, -, -, whole | all⟩ := known
  · exact whole.toNat_pageCount_le
  · omega

/-- The page that was appended is known. -/
theorem Known.appended (known : (scanning next limit).Known f v) (last : ¬next < limit) :
    (InsertionStage.appended (f.pageCount v) limit).Known f (f.appendPage v).2 := by
  have grown := HeapFile.grown_append (known.leaves_no_gap last)
  have less := grown.pages_le
  have more := grown.count_le.1
  have pages : f.pages (f.appendPage v).2 = max (f.pages v) ((f.pageCount v).toNat + 1) := by
    rw [HeapFile.appendPage_eq, HeapFile.pages_writeAt List.length_replicate]
  have counted : f.pages (f.appendPage v).2 ≤ f.count (f.appendPage v).2 :=
    HeapFile.pages_le_count.1
  have number : (f.pageCount v).toNat = f.count v % 4294967296 := HeapFile.toNat_pageCount
  obtain ⟨passed, there, small, -⟩ := known
  exact ⟨by omega, by omega, by omega⟩

/-- The search goes on behind the pages that are known. -/
theorem Known.counted (known : (counting limit).Known f v) :
    (scanning limit (f.pageCount v).toNat).Known f v :=
  known_counted known.1

end InsertionStage

namespace HeapFile

variable {f : HeapFile} {e e' e'' : Engine} {t u : TxnId} {row : Tuple} {next limit : Nat}
  {page : UInt32} {stage full : InsertionStage} {steps : Nat}
  {onwards : InsertionStage × Engine → Prop}
  {ends : Except Halt (Tuple × Page) × InsertionStage × Engine → Prop}

/-- An insertion is granted steps by how far it has come, if they are not
limited. -/
theorem on_insert (t : TxnId) (row : Tuple) (steps : Option Nat) (stage : InsertionStage)
    (e : Engine) :
    (f.insert t row steps).on (stage, e)
      = (f.insertFrom t row (steps.getD (f.insertionFuel (stage, e)))).on (stage, e) := by
  rw [insert, Turn.on_bind_ok (Turn.on_get _)]

theorem on_insert_none (t : TxnId) (row : Tuple) (stage : InsertionStage) (e : Engine) :
    (f.insert t row).on (stage, e)
      = (f.insertFrom t row (f.insertionFuel (stage, e))).on (stage, e) :=
  on_insert t row none stage e

/-! ### One step -/

/-- What a step is at a page that is tried. -/
def atPage (stage full : InsertionStage) :
    Except Halt (Option (Tuple × Page)) × Engine →
      Except Halt (Option (Tuple × Page)) × InsertionStage × Engine
  | (.ok none, e) => (.ok none, full, e)
  | (.ok (some stored), e) => (.ok (some stored), stage, e)
  | (.error halt, e) => (.error halt, stage, e)

theorem on_tryPage : (f.tryPage t row page full).on (stage, e)
    = atPage stage full ((Engine.tryInsert t row ⟨f.table, page⟩).on e) := by
  rw [tryPage, Turn.on_bind, inEngine, Turn.on_within]
  rcases (Engine.tryInsert t row ⟨f.table, page⟩).on e with ⟨outcome, e'⟩
  cases outcome with
  | error halt => rfl
  | ok stored => cases stored <;> rfl

theorem on_insertStep_tries (tries : stage.tries? = some (page, full)) :
    (f.insertStep t row).on (stage, e)
      = atPage stage full ((Engine.tryInsert t row ⟨f.table, page⟩).on e) := by
  rw [insertStep, Turn.on_bind_ok (Turn.on_get _)]
  obtain ⟨next, limit, more, rfl, rfl, rfl⟩ | ⟨limit, rfl, rfl⟩ :=
    InsertionStage.cases_of_tries tries
  · dsimp only
    rw [if_pos more, on_tryPage]
  · exact on_tryPage

theorem on_insertStep_append (last : ¬next < limit) :
    (f.insertStep t row).on (.scanning next limit, e)
      = (.ok none, .appended (f.pageCount e.volume) limit,
        { e with volume := (f.appendPage e.volume).2 }) := by
  rw [insertStep, Turn.on_bind_ok (Turn.on_get _)]
  dsimp only
  rw [if_neg last]
  rfl

theorem on_insertStep_counting :
    (f.insertStep t row).on (.counting limit, e)
      = (.ok none, .scanning limit (f.pageCount e.volume).toNat, e) :=
  rfl

/-- **What a step of an insertion leads to**: the insertion goes on from where
`onwards` says, or has come to what `ends` says. -/
def Leads (onwards : InsertionStage × Engine → Prop)
    (ends : Except Halt (Tuple × Page) × InsertionStage × Engine → Prop) :
    Except Halt (Option (Tuple × Page)) × InsertionStage × Engine → Prop
  | (.ok none, s) => onwards s
  | (.ok (some stored), s) => ends (.ok stored, s)
  | (.error halt, s) => ends (.error halt, s)

theorem Leads.mono {onwards' : InsertionStage × Engine → Prop}
    {ends' : Except Halt (Tuple × Page) × InsertionStage × Engine → Prop}
    {result : Except Halt (Option (Tuple × Page)) × InsertionStage × Engine}
    (leads : Leads onwards ends result) (on : ∀ s, onwards s → onwards' s)
    (done : ∀ r, ends r → ends' r) : Leads onwards' ends' result := by
  obtain ⟨outcome, s⟩ := result
  cases outcome with
  | error halt => exact done _ leads
  | ok stored =>
    cases stored with
    | none => exact on _ leads
    | some stored => exact done _ leads

/-- A step that leads two ways leads both ways at once. -/
theorem Leads.and {also : InsertionStage × Engine → Prop}
    {ends' : Except Halt (Tuple × Page) × InsertionStage × Engine → Prop}
    {result : Except Halt (Option (Tuple × Page)) × InsertionStage × Engine}
    (leads : Leads onwards ends' result) (other : Leads also ends result) :
    Leads (fun s => also s ∧ onwards s) ends result := by
  obtain ⟨outcome, s⟩ := result
  cases outcome with
  | error halt => exact other
  | ok stored =>
    cases stored with
    | none => exact ⟨other, leads⟩
    | some stored => exact other

/-- **All that a step can be**: a page is tried, a page is appended, or the pages
are counted. -/
theorem leads_insertStep
    (tries : ∀ page full, stage.tries? = some (page, full) →
      Leads onwards ends (atPage stage full ((Engine.tryInsert t row ⟨f.table, page⟩).on e)))
    (appends : ∀ next limit, stage = .scanning next limit → ¬next < limit →
      onwards (.appended (f.pageCount e.volume) limit,
        { e with volume := (f.appendPage e.volume).2 }))
    (counts : ∀ limit, stage = .counting limit →
      onwards (.scanning limit (f.pageCount e.volume).toNat, e)) :
    Leads onwards ends ((f.insertStep t row).on (stage, e)) := by
  rcases stage.trichotomy with ⟨page, full, asked⟩ | ⟨next, limit, rfl, last⟩ | ⟨limit, rfl⟩
  · rw [on_insertStep_tries asked]
    exact tries page full asked
  · rw [on_insertStep_append last]
    exact appends next limit rfl last
  · exact counts limit rfl

/-! ### Step after step -/

theorem on_insertFrom_succ (s : InsertionStage × Engine) :
    (f.insertFrom t row (steps + 1)).on s
      = match (f.insertStep t row).on s with
        | (.ok none, s') => (f.insertFrom t row steps).on s'
        | (.ok (some stored), s') => (.ok stored, s')
        | (.error halt, s') => (.error halt, s') := by
  rw [insertFrom, Turn.on_bind]
  rcases (f.insertStep t row).on s with ⟨outcome, s'⟩
  cases outcome with
  | error halt => rfl
  | ok stored => cases stored <;> rfl

/-- **What every step of an insertion preserves** holds when the insertion is set
aside, and what its last step comes to is what it comes to. The steps that are
left may be part of it. -/
theorem insertFrom_induction {I : Nat → InsertionStage × Engine → Prop}
    {P : Except Halt (Tuple × Page) × InsertionStage × Engine → Prop}
    (aside : ∀ s, I 0 s → P (.error .pause, s))
    (step : ∀ steps stage e, I (steps + 1) (stage, e) →
      Leads (I steps) P ((f.insertStep t row).on (stage, e)))
    {s : InsertionStage × Engine} (start : I steps s) :
    P ((f.insertFrom t row steps).on s) := by
  induction steps generalizing s with
  | zero => exact aside s start
  | succ steps ih =>
    obtain ⟨stage, e⟩ := s
    have leads := step steps stage e start
    rw [on_insertFrom_succ]
    generalize (f.insertStep t row).on (stage, e) = r at leads ⊢
    obtain ⟨outcome, s'⟩ := r
    cases outcome with
    | error halt => exact leads
    | ok stored =>
      cases stored with
      | none => exact ih leads
      | some stored => exact leads

/-! ### What an insertion comes to -/

/-- **What an insertion does on its way**: no row changes, and no file but its
own. -/
structure Searches (f : HeapFile) (t : TxnId) (e e' : Engine) : Prop where
  moves : Engine.Moves t e [] e'
  elsewhere : ∀ path, path ≠ f.path → e'.volume.content path = e.volume.content path

theorem Searches.refl : f.Searches t e e :=
  ⟨.refl, fun _ _ => rfl⟩

theorem Searches.trans (first : f.Searches t e e') (second : f.Searches t e' e'') :
    f.Searches t e e'' :=
  ⟨first.moves.after second.moves,
    fun path other => (second.elsewhere path other).trans (first.elsewhere path other)⟩

theorem searches_of_volume (moves : Engine.Moves t e [] e') (volume : e'.volume = e.volume) :
    f.Searches t e e' :=
  ⟨moves, fun _ _ => by rw [volume]⟩

/-- **What an insertion comes to**: a row in one of the pages of the table,
which is not marked, or no change of a row. Cut short, it goes on with what it
knows. -/
def Inserted (f : HeapFile) (t : TxnId) (row : Tuple) (e : Engine) :
    Except Halt (Tuple × Page) × InsertionStage × Engine → Prop
  | (.ok (stored, q), _, e') =>
    ∃ e₁ record, f.Searches t e e₁ ∧ record.page.table = f.table
      ∧ stored = row.located (some record)
      ∧ Engine.Altered t e₁ ⟨record, some (f.schema.keep row.values)⟩ q e'
  | (.error _, stage, e') => f.Searches t e e' ∧ stage.Known f e'.volume

/-- **Where an insertion has come to** that has changed no row yet. -/
def Underway (f : HeapFile) (t : TxnId) (e : Engine) (s : InsertionStage × Engine) : Prop :=
  f.Searches t e s.2 ∧ s.1.Known f s.2.volume

variable (t row) in
/-- **What a step of an insertion does.** -/
theorem insertStep_spec (first : f.Searches t e e') (coherent : e'.Coherent)
    (file : e'.catalog.file f.table = .ok f) (known : stage.Known f e'.volume) :
    Leads (f.Underway t e) (f.Inserted t row e) ((f.insertStep t row).on (stage, e')) := by
  refine leads_insertStep (fun page full tries => ?_) (fun next limit at_ last => ?_)
    fun limit at_ => ?_
  · have tried := Engine.tryInsert_spec (p := ⟨f.table, page⟩) t row coherent file
    generalize (Engine.tryInsert t row ⟨f.table, page⟩).on e' = r at tried ⊢
    obtain ⟨outcome, e''⟩ := r
    cases outcome with
    | error halt =>
      obtain ⟨moves, volume⟩ := tried
      exact ⟨first.trans (searches_of_volume moves volume), volume.symm ▸ known⟩
    | ok stored =>
      cases stored with
      | none =>
        obtain ⟨⟨moves, volume⟩, there⟩ := tried
        exact ⟨first.trans (searches_of_volume moves volume),
          volume.symm ▸ known.of_full tries there⟩
      | some stored =>
        obtain ⟨e₁, record, moves, volume, page, place, altered⟩ := tried
        exact ⟨e₁, record, first.trans (searches_of_volume moves volume), by rw [page], place,
          altered⟩
  · subst at_
    refine ⟨first.trans ⟨.one (.append f file (known.leaves_no_gap last)), fun path other => ?_⟩,
      known.appended last⟩
    rw [appendPage_eq, writeAt, Volume.content_put, if_neg other]
  · subst at_
    exact ⟨first, known.counted⟩

variable (t row steps) in
/-- **What an insertion does**, from wherever it has come to. -/
theorem insertFrom_spec (coherent : e.Coherent) (file : e.catalog.file f.table = .ok f)
    (known : stage.Known f e.volume) :
    f.Inserted t row e ((f.insertFrom t row steps).on (stage, e)) := by
  refine insertFrom_induction (I := fun _ => f.Underway t e) (fun s underway => underway)
    (fun _ stage e' underway => ?_) ⟨.refl, known⟩
  have effect := underway.1.moves.effect coherent
  exact insertStep_spec t row underway.1 effect.coherent (effect.catalog ▸ file) underway.2

variable (row steps) in
/-- **An insertion into a file whose pages are held** by another transaction goes
no further, unless it is past them. -/
theorem insertFrom_of_held (known : stage.Known f e.volume) (inside : ¬stage.Past)
    (small : f.count e.volume < 4294967296) (other : u ≠ t)
    (held : ∀ i, i < f.count e.volume → e.locks.mode? u ⟨f.table, UInt32.ofNat i⟩ ≠ none) :
    ∃ halt stage' locks, (f.insertFrom t row steps).on (stage, e)
        = (.error halt, stage', { e with locks := locks }) ∧ ¬stage'.Past := by
  have number : (f.pageCount e.volume).toNat = f.count e.volume := by
    rw [toNat_pageCount, Nat.mod_eq_of_lt small]
  refine insertFrom_induction
    (I := fun _ s => s.2 = e ∧ s.1.Known f e.volume ∧ ¬s.1.Past)
    (P := fun r => ∃ halt stage' locks, r = (.error halt, stage', { e with locks := locks })
      ∧ ¬stage'.Past) ?_ ?_ ⟨rfl, known, inside⟩
  · rintro ⟨stage', e'⟩ ⟨rfl, -, inside⟩
    exact ⟨.pause, stage', e'.locks, rfl, inside⟩
  · rintro - stage' e' ⟨rfl, known, inside⟩
    refine leads_insertStep (fun page full tries => ?_) (fun next limit at_ last => ?_)
      fun limit at_ => ?_
    · have held' := held page.toNat (known.lt_count tries)
      rw [UInt32.ofNat_toNat] at held'
      obtain ⟨halt, locks, tried⟩ := Engine.tryInsert_of_held row held' other
      rw [tried]
      exact ⟨halt, stage', locks, rfl, inside⟩
    · subst at_
      exact absurd (Nat.not_lt.1 last) inside
    · -- a page has been appended since, so there is one to be looked at
      subst at_
      refine ⟨rfl, known.counted, fun past => ?_⟩
      exact absurd known.2 (Nat.not_lt.2 (number ▸ past))

/-! ## How long an insertion takes -/

/-- A page that was just appended is empty, as long as the page count has not
wrapped. -/
theorem pageSeen_append (coherent : e.Coherent) (file : e.catalog.file f.table = .ok f)
    (next : (f.pageCount e.volume).toNat ≤ f.pages e.volume)
    (small : f.count e.volume < 4294967296) :
    Engine.pageSeen { e with volume := (f.appendPage e.volume).2 } ⟨f.table, f.pageCount e.volume⟩
      = .ok (f.emptyPage (f.pageCount e.volume)) := by
  have absent : e.frame? ⟨f.table, f.pageCount e.volume⟩ = none := by
    cases there : e.frame? ⟨f.table, f.pageCount e.volume⟩ with
    | none => rfl
    | some frame =>
      obtain ⟨d, read, -⟩ := coherent.cached _ frame there
      rw [Engine.readPage_of_file file] at read
      have inside := (isOk_readPage_iff.1 ⟨d, read⟩).2
      have counted : f.pages e.volume ≤ f.count e.volume := pages_le_count.1
      rw [toNat_pageCount, Nat.mod_eq_of_lt small] at inside
      exact absurd inside (Nat.not_lt.2 counted)
  have absent' : Engine.frame? { e with volume := (f.appendPage e.volume).2 }
      ⟨f.table, f.pageCount e.volume⟩ = none := absent
  rw [Engine.pageSeen_of_absent absent', coherent.readPage_append file next, if_pos rfl]

variable (t row) in
/-- **A step that appends no page** leaves fewer steps to be taken. -/
theorem leads_need (coherent : e.Coherent) (file : e.catalog.file f.table = .ok f)
    (known : stage.Known f e.volume) (inside : ¬stage.Past) :
    Leads (fun s => s.2.volume = e.volume
        ∧ s.1.need (f.pageCount e.volume).toNat < stage.need (f.pageCount e.volume).toNat)
      (fun _ => True) ((f.insertStep t row).on (stage, e)) := by
  refine leads_insertStep (fun page full tries => ?_) (fun next limit at_ last => ?_)
    fun limit at_ => ?_
  · have tried := Engine.tryInsert_spec (p := ⟨f.table, page⟩) t row coherent file
    have volume := (tried.files coherent).2
    have less : full.need (f.pageCount e.volume).toNat
        < stage.need (f.pageCount e.volume).toNat := by
      obtain ⟨next, limit, more, rfl, rfl, rfl⟩ | ⟨limit, rfl, rfl⟩ :=
        InsertionStage.cases_of_tries tries <;>
      · simp only [InsertionStage.need]
        omega
    generalize (Engine.tryInsert t row ⟨f.table, page⟩).on e = r at volume ⊢
    obtain ⟨outcome, e'⟩ := r
    cases outcome with
    | error halt => trivial
    | ok stored =>
      cases stored with
      | none => exact ⟨volume, less⟩
      | some stored => trivial
  · subst at_
    exact absurd (Nat.not_lt.1 last) inside
  · subst at_
    refine ⟨rfl, ?_⟩
    simp only [InsertionStage.need]
    omega

variable (t row) in
/-- **An insertion that is past its pages** ends with its second step: the page that
it appends has a free slot. -/
theorem insertFrom_of_past (coherent : e.Coherent) (file : e.catalog.file f.table = .ok f)
    (small : f.count e.volume < 4294967296)
    (known : (InsertionStage.scanning next limit).Known f e.volume) (last : ¬next < limit)
    (steps more : Nat) :
    (f.insertFrom t row (steps + 2)).on (.scanning next limit, e)
      = (f.insertFrom t row (more + 2)).on (.scanning next limit, e) := by
  have gapless := known.leaves_no_gap last
  have free := Engine.tryInsert_of_free t row
    (coherent.coherent_append file gapless) (pageSeen_append coherent file gapless small)
    (hasFreeSlot_emptyPage ..)
  rw [on_insertFrom_succ, on_insertFrom_succ, on_insertStep_append last]
  dsimp only
  rw [on_insertFrom_succ, on_insertFrom_succ, on_insertStep_tries rfl]
  generalize (Engine.tryInsert t row ⟨f.table, f.pageCount e.volume⟩).on _ = r at free ⊢
  obtain ⟨outcome, e'⟩ := r
  cases outcome with
  | error halt => rfl
  | ok stored =>
    cases stored with
    | none => exact absurd rfl free
    | some stored => rfl

variable (t row) in
/-- **An insertion takes no more steps than it needs**, whatever it is
granted. -/
theorem insertFrom_congr (coherent : e.Coherent) (file : e.catalog.file f.table = .ok f)
    (small : f.count e.volume < 4294967296) (known : stage.Known f e.volume) {more : Nat}
    (enough : stage.need (f.pageCount e.volume).toNat ≤ steps)
    (enough' : stage.need (f.pageCount e.volume).toNat ≤ more) :
    (f.insertFrom t row steps).on (stage, e) = (f.insertFrom t row more).on (stage, e) := by
  induction steps generalizing more stage e with
  | zero => cases stage <;> exact absurd enough (by simp [InsertionStage.need])
  | succ steps ih =>
    obtain ⟨more, rfl⟩ : ∃ m, more = m + 1 := by
      refine Nat.exists_eq_succ_of_ne_zero ?_
      rintro rfl
      cases stage <;> exact absurd enough' (by simp [InsertionStage.need])
    by_cases past : stage.Past
    · cases stage with
      | scanning next limit =>
        rw [InsertionStage.need] at enough enough'
        obtain ⟨steps, rfl⟩ : ∃ m, steps = m + 1 := ⟨steps - 1, by omega⟩
        obtain ⟨more, rfl⟩ : ∃ m, more = m + 1 := ⟨more - 1, by omega⟩
        exact insertFrom_of_past t row coherent file small known (Nat.not_lt.2 past) steps more
      | appended | counting => exact past.elim
    · have spec := insertStep_spec t row .refl coherent file known
      have less := leads_need t row coherent file known past
      rw [on_insertFrom_succ, on_insertFrom_succ]
      generalize (f.insertStep t row).on (stage, e) = r at spec less ⊢
      obtain ⟨outcome, stage', e'⟩ := r
      cases outcome with
      | error halt => rfl
      | ok stored =>
        cases stored with
        | some stored => rfl
        | none =>
          obtain ⟨searches, known'⟩ := spec
          obtain ⟨volume, less⟩ := less
          have effect := searches.moves.effect coherent
          dsimp only at volume
          rw [← volume] at less small
          refine ih effect.coherent (effect.catalog ▸ file) small known' ?_ ?_ <;>
          · dsimp only at less ⊢
            rw [← volume] at enough enough'
            omega

/-- An insertion is granted as many steps as it needs. -/
theorem need_le_insertionFuel (stage : InsertionStage) :
    stage.need (f.pageCount e.volume).toNat ≤ f.insertionFuel (stage, e) := by
  cases stage <;> simp only [InsertionStage.need, insertionFuel] <;> omega

/-! ## Overrun pages -/

/-- **The next append to the file erases a page**: it is written over, and no
row of it is stored any more, nor seen if it is not in the cache. -/
def Erases (f : HeapFile) (e : Engine) (p : PageId) : Prop :=
  ∃ e', f.append.on e = (.ok p.number, e')
    ∧ ∀ slot, e'.stored ⟨p, slot⟩ = none ∧ (e.frame? p = none → e'.seen ⟨p, slot⟩ = none)

end HeapFile

namespace Engine

variable {e : Engine} {f : HeapFile} {p : PageId}

/-- **An overrun page is erased** by the next append to its file. -/
theorem Overrun.erases (hit : e.Overrun p) (file : e.catalog.file p.table = .ok f) :
    f.Erases e p := by
  obtain ⟨g, found, inside, number⟩ := hit
  rw [file] at found
  cases found
  have table : f.table = p.table := Catalog.table_of_file file
  have next : (f.pageCount e.volume).toNat ≤ f.pages e.volume := number ▸ Nat.le_of_lt inside
  have last : p = ⟨f.table, f.pageCount e.volume⟩ := by rw [table, number]
  have read : readPage { e with volume := (f.appendPage e.volume).2 } p
      = f.readPage (f.appendPage e.volume).2 p := readPage_of_file file
  rw [HeapFile.readPage_appendPage next, if_pos last] at read
  have stored : ∀ slot,
      Engine.stored { e with volume := (f.appendPage e.volume).2 } ⟨p, slot⟩ = none := by
    intro slot
    rw [Engine.stored, read]
    exact HeapFile.rowAt_emptyPage ..
  refine ⟨{ e with volume := (f.appendPage e.volume).2 }, number ▸ rfl,
    fun slot => ⟨stored slot, fun absent => ?_⟩⟩
  have seen : pageSeen { e with volume := (f.appendPage e.volume).2 } p
      = readPage { e with volume := (f.appendPage e.volume).2 } p := pageSeen_of_absent absent
  rw [Engine.seen, seen]
  exact stored slot

end Engine

end Tablespace
