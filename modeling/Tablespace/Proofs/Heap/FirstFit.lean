import Tablespace.Proofs.Heap.Trial
import Tablespace.Proofs.Page.Slots

/-!
# The first place with room

The places of a file are ordered: slot by slot, page by page, and behind the last page
comes one that is not there yet. An insertion puts its row into the first place that
holds none (`HeapFile.FirstFree`), as long as nothing but a lock is in its way
(`Engine.Clear`): all pages can be read, there is room in the cache, and the pages can
be counted (`HeapFile.finds_insertFrom`). A page is appended only if all others are
full, and a page that was appended is empty, so the search ends there.

The pages that were looked through are as they were. An insertion that is barred by a
lock (`Halt.Barred`) is not spoken of here.
-/

namespace Tablespace

/-- **Another transaction's lock is in the way**: it is waited for, or there is a
deadlock. -/
def Halt.Barred (t : TxnId) (halt : Halt) : Prop :=
  halt = .wait ∨ ∃ holder, halt = .fault (.deadlock t holder)

namespace HeapFile

variable {f : HeapFile} {v : Volume} {p : PageId} {q : Page} {n : UInt32}

/-- The number of slots of every page. -/
def slotCount (f : HeapFile) : Nat :=
  Layout.slotCount f.pageSize f.schema.rowSize

theorem Fits.slotCount (fits : f.Fits v p q) : q.slotCount = f.slotCount := by
  obtain ⟨-, -, size, schema⟩ := fits.place
  rw [Page.slotCount, size, schema, HeapFile.slotCount]

/-- **A file whose pages can all be read** has none that is cut short. -/
theorem whole_of_readable (small : f.count v < 4294967296)
    (readable : ∀ n : UInt32, n.toNat < f.count v → ∃ d, f.readPage v ⟨f.table, n⟩ = .ok d) :
    f.Whole v := by
  by_contra cut
  have count : f.count v = f.pages v + 1 := count_of_not_whole cut
  have number : (UInt32.ofNat (f.pages v)).toNat = f.pages v := by
    rw [UInt32.toNat_ofNat', Nat.mod_eq_of_lt (by omega)]
  have there := (isOk_readPage_iff.1 (readable (UInt32.ofNat (f.pages v)) (by omega))).2
  exact absurd (number ▸ there) (Nat.lt_irrefl _)

/-- **A file that has grown by a page**, which is empty and the last one. -/
structure GrownByPage (f : HeapFile) (v w : Volume) : Prop where
  counted : f.count w = f.count v + 1
  read : ∀ p, f.readPage w p = if p = ⟨f.table, f.pageCount v⟩
    then .ok (f.emptyPage (f.pageCount v)) else f.readPage v p
  elsewhere : ∀ path, path ≠ f.path → w.content path = v.content path

/-- **An array of pages grows by the page that is appended**, if it can be counted. -/
theorem Whole.grownByPage (whole : f.Whole v) (small : f.count v < 4294967296) :
    f.GrownByPage v (f.appendPage v).2 where
  counted := by
    have number : (f.pageCount v).toNat = f.count v := by
      rw [toNat_pageCount, Nat.mod_eq_of_lt small]
    have whole' : f.Whole (f.appendPage v).2 := whole.writeAt List.length_replicate
    have counted := whole.count_eq
    rw [whole'.count_eq, appendPage_eq, pages_writeAt List.length_replicate]
    omega
  read p := readPage_appendPage whole.toNat_pageCount_le p
  elsewhere path other := by
    rw [appendPage_eq, HeapFile.writeAt, Volume.content_put, if_neg other]

/-- **The first place of a file that holds no row**, as far as is seen. Behind the last
page it is the first slot of the page to come. -/
structure FirstFree (f : HeapFile) (e : Engine) (n : UInt32) (slot : SlotId) : Prop where
  page : n.toNat ≤ f.count e.volume
  inside : slot.toNat < f.slotCount
  free : e.seen ⟨⟨f.table, n⟩, slot⟩ = none
  behind : n.toNat = f.count e.volume → slot = 0
  before : ∀ m s, s.toNat < f.slotCount → m < n ∨ m = n ∧ s < slot →
    e.seen ⟨⟨f.table, m⟩, s⟩ ≠ none

end HeapFile

namespace Engine

variable {e e' : Engine} {grow : HeapFile → Volume → Prop} {t : TxnId} {f : HeapFile} {p : PageId}
  {d q : Page} {row stored : Tuple} {halt : Halt} {n : UInt32}

/-- **Nothing but a lock is in the way** of a row for the file. -/
structure Clear (e : Engine) (f : HeapFile) : Prop where
  orderly : e.Orderly
  tends : e.Tends f
  file : e.catalog.file f.table = .ok f
  whole : f.Whole e.volume
  small : f.count e.volume < 4294967296
  room : e.HasRoom

namespace Clear

variable (clear : e.Clear f)

include clear

/-- The page count tells how many pages there are. -/
theorem toNat_pageCount : (f.pageCount e.volume).toNat = f.count e.volume := by
  rw [HeapFile.toNat_pageCount, Nat.mod_eq_of_lt clear.small]

/-- No page of the file is overrun. -/
theorem intact (n : UInt32) : ¬f.Overrun e.volume n := fun hit =>
  absurd (HeapFile.overrun_iff.1 hit).1 (Nat.not_le.2 clear.small)

/-- A page of the file is seen. -/
theorem pageSeen (there : n.toNat < f.count e.volume) : ∃ d, e.pageSeen ⟨f.table, n⟩ = .ok d := by
  have hosts : e.Hosts f := ⟨clear.orderly, clear.tends, clear.file, clear.whole⟩
  obtain ⟨d, seen, -⟩ := hosts.pageSeen (clear.whole.count_eq ▸ there)
  exact ⟨d, seen⟩

/-- What is quiet and leaves the files alone leaves the way clear, and what is seen of
the file as it was. -/
theorem quietly (quietly : Quietly (f.Appends True) e e') (volume : e'.volume = e.volume)
    (room : e'.HasRoom) :
    e'.Clear f ∧ ∀ n slot, e'.seen ⟨⟨f.table, n⟩, slot⟩ = e.seen ⟨⟨f.table, n⟩, slot⟩ := by
  have bears : f.Bears (f.Appends True) := HeapFile.bears_appends (.refl f) fun _ => trivial
  refine ⟨⟨Quietly.orderly quietly clear.orderly, clear.tends.steps bears (Quietly.steps quietly),
    Quietly.catalog quietly ▸ clear.file, volume ▸ clear.whole, volume ▸ clear.small, room⟩,
    fun n slot => ?_⟩
  exact (clear.tends.quietly bears clear.file quietly (volume ▸ clear.intact n) slot).2

/-- The page that is appended is seen, and is empty. -/
theorem pageSeen_append :
    Engine.pageSeen { e with volume := (f.appendPage e.volume).2 } ⟨f.table, f.pageCount e.volume⟩
      = .ok (f.emptyPage (f.pageCount e.volume)) := by
  have absent : frame? { e with volume := (f.appendPage e.volume).2 }
      ⟨f.table, f.pageCount e.volume⟩ = none := by
    show e.frame? _ = none
    cases there : e.frame? ⟨f.table, f.pageCount e.volume⟩ with
    | none => rfl
    | some frame =>
      have inside := (clear.tends.cached _ frame rfl there).place.2.1
      rw [clear.toNat_pageCount, clear.whole.count_eq] at inside
      exact absurd inside (Nat.lt_irrefl _)
  have read : readPage { e with volume := (f.appendPage e.volume).2 }
      ⟨f.table, f.pageCount e.volume⟩ = f.readPage (f.appendPage e.volume).2 _ :=
    readPage_of_file clear.file
  rw [pageSeen_of_absent absent, read, HeapFile.readPage_appendPage clear.whole.toNat_pageCount_le,
    if_pos rfl]

/-- Behind the last page there is no row to be seen. -/
theorem seen_behind (slot : SlotId) :
    e.seen ⟨⟨f.table, f.pageCount e.volume⟩, slot⟩ = none := by
  rw [seen]
  cases behind : e.pageSeen ⟨f.table, f.pageCount e.volume⟩ with
  | error cause => rfl
  | ok d =>
    have inside := (clear.tends.fits_of_pageSeen rfl behind).place.2.1
    rw [clear.toNat_pageCount, clear.whole.count_eq] at inside
    exact absurd inside (Nat.lt_irrefl _)

end Clear

/-! ## One page -/

/-- **A page that could be tried was barred by a lock.** -/
theorem Tries.barred (tries : Tries grow t row p e (.error halt, e')) (seen : e.pageSeen p = .ok d)
    (room : e.HasRoom) (conforms : row.Conforms) (layout : row.schema.sameLayout d.schema = true) :
    halt.Barred t := by
  obtain ⟨-, -, -, rfl | ⟨cause, rfl, reason⟩⟩ := tries
  · exact .inl rfl
  rcases reason with deadlock | ⟨absent, full | unread⟩ | ⟨q, seen', free, failed⟩
  · exact .inr (deadlock.imp fun _ is => congrArg Halt.fault is)
  · exact absurd room full
  · rw [pageSeen_of_absent absent, unread] at seen
    cases seen
  · -- the row suits the page, which has a free slot
    obtain rfl : d = q := Except.ok.inj (seen.symm.trans seen')
    obtain ⟨slot, first⟩ := Option.isSome_iff_exists.1 free
    rw [(Page.insert_of_firstFree? conforms layout first).1] at failed
    cases failed

/-- **A row that is put into a page** is in its first free slot, and is what the columns
keep of it. -/
theorem Tries.put (tries : Tries grow t row p e (.ok (some (stored, q)), e'))
    (seen : e.pageSeen p = .ok d) (name : d.id = p) :
    ∃ slot : SlotId, slot.toNat < d.slotCount ∧ d.rowAt slot.toNat = none
      ∧ (∀ s < slot.toNat, d.rowAt s ≠ none) ∧ stored = row.located (some ⟨p, slot⟩)
      ∧ (∀ s, q.rowAt s = if s = slot.toNat then some (d.schema.keep row.values) else d.rowAt s)
      ∧ ∃ e₁ frame, Reworked grow t p e e₁ frame q e' ∧ e₁.volume = e.volume := by
  subst name
  obtain ⟨e₁, frame, reworked, volume, seen', inserted⟩ := tries
  obtain rfl : d = frame.page := Except.ok.inj (seen.symm.trans seen')
  obtain ⟨slot, there, free, rfl, -, rows⟩ := Page.insert_ok inserted
  exact ⟨slot, there, free, fun s => Page.rowAt_ne_none_of_insert inserted, rfl, rows, e₁, frame,
    reworked, volume⟩

end Engine

/-! ## Page after page -/

namespace HeapFile

open Engine (Clear Quietly Reworked Tries)

variable {f : HeapFile} {t : TxnId} {row : Tuple} {e e' e'' : Engine} {next : Nat}
  {stage full : InsertionStage}

/-- **What an insertion with a clear way comes to**: the row is in the first place, as the
columns keep it, and a page was appended only for want of another; or a lock is in the
way. -/
def Finds (f : HeapFile) (t : TxnId) (row : Tuple) (e : Engine) :
    Except Halt (Tuple × Page) × InsertionStage × Engine → Prop
  | (.ok (stored, q), _, e') => ∃ n slot, f.FirstFree e n slot
      ∧ stored = row.located (some ⟨⟨f.table, n⟩, slot⟩)
      ∧ (∀ s : SlotId, q.rowAt s.toNat
        = if s = slot then some (f.schema.keep row.values) else e.seen ⟨⟨f.table, n⟩, s⟩)
      ∧ ∃ e₁ frame, Reworked (f.Appends True) t ⟨f.table, n⟩ e e₁ frame q e'
        ∧ e₁.volume = if n.toNat < f.count e.volume then e.volume else (f.appendPage e.volume).2
  | (.error halt, _, _) => halt.Barred t

/-- **The pages before `next` are full**, and have been looked through without a
change. -/
structure Searched (f : HeapFile) (e : Engine) (next : Nat) (e' : Engine) : Prop where
  clear : e'.Clear f
  quietly : Quietly (f.Appends True) e e'
  volume : e'.volume = e.volume
  modes : e'.locks.mode? = e.locks.mode?
  seen : ∀ n slot, e'.seen ⟨⟨f.table, n⟩, slot⟩ = e.seen ⟨⟨f.table, n⟩, slot⟩
  passed : ∀ (m : UInt32) (s : SlotId), m.toNat < next → s.toNat < f.slotCount →
    e.seen ⟨⟨f.table, m⟩, s⟩ ≠ none

/-- One search after another. -/
theorem Searched.trans {later : Nat} (first : f.Searched e next e')
    (second : f.Searched e' later e'') : f.Searched e later e'' where
  clear := second.clear
  quietly := first.quietly.trans second.quietly
  volume := second.volume.trans first.volume
  modes := second.modes.trans first.modes
  seen n slot := (second.seen n slot).trans (first.seen n slot)
  passed m s lower inside := first.seen m s ▸ second.passed m s lower inside

/-- What was looked through before belongs to the search. -/
theorem Finds.before {result : Except Halt (Tuple × Page) × InsertionStage × Engine}
    (finds : f.Finds t row e' result) (searched : f.Searched e next e') :
    f.Finds t row e result := by
  obtain ⟨outcome, stage, e₂⟩ := result
  obtain ⟨-, quietly, volume, modes, seen, -⟩ := searched
  cases outcome with
  | error halt => exact finds
  | ok stored =>
    obtain ⟨n, slot, first, place, rows, e₁, frame, reworked, grown⟩ := finds
    rw [volume] at grown
    refine ⟨n, slot, ⟨volume ▸ first.page, first.inside, seen n slot ▸ first.free,
      volume ▸ first.behind, fun m s inside before => ?_⟩, place, fun s => ?_, e₁, frame,
      reworked.before quietly modes, grown⟩
    · rw [← seen]
      exact first.before m s inside before
    · rw [rows, seen]

section Step

variable (clear : e.Clear f) (conforms : row.Conforms)
  (layout : row.schema.sameLayout f.schema = true)
  (passed : ∀ (m : UInt32) (s : SlotId), m.toNat < next → s.toNat < f.slotCount →
    e.seen ⟨⟨f.table, m⟩, s⟩ ≠ none)

include clear conforms layout passed

variable (t) in
/-- **A page is tried** after those that were full: the row goes into it, or it is full as
well. -/
theorem leads_page (more : next < f.count e.volume) :
    Leads (fun s => s.1 = full ∧ f.Searched e (next + 1) s.2) (f.Finds t row e)
      (atPage stage full ((Engine.tryInsert t row ⟨f.table, .ofNat next⟩).on e)) := by
  have number : (UInt32.ofNat next).toNat = next := by
    rw [UInt32.toNat_ofNat', Nat.mod_eq_of_lt (Nat.lt_trans more clear.small)]
  obtain ⟨d, seen⟩ := clear.pageSeen (number.symm ▸ more)
  have fits := clear.tends.fits_of_pageSeen rfl seen
  have rows (s : SlotId) : e.seen ⟨⟨f.table, .ofNat next⟩, s⟩ = d.rowAt s.toNat := by
    rw [Engine.seen, seen]
    rfl
  have tries := Engine.tries_tryInsert (f.Appends True) t ⟨f.table, .ofNat next⟩ row
    clear.orderly
  cases tried : (Engine.tryInsert t row ⟨f.table, .ofNat next⟩).on e with | mk outcome e' =>
  rw [tried] at tries
  cases outcome with
  | error halt => exact tries.barred seen clear.room conforms (fits.place.2.2.2 ▸ layout)
  | ok stored =>
    cases stored with
    | none =>
      obtain ⟨quietly, volume, modes, ⟨q, seen', full⟩, room⟩ := tries
      obtain rfl : d = q := Except.ok.inj (seen.symm.trans seen')
      obtain ⟨clear', same⟩ := clear.quietly quietly volume (room clear.room)
      refine ⟨rfl, clear', quietly, volume, modes, same, fun m s lower inside => ?_⟩
      rcases Nat.lt_succ_iff_lt_or_eq.1 lower with before | here
      · exact passed m s before inside
      · obtain rfl : m = .ofNat next := UInt32.toNat_inj.1 (here.trans number.symm)
        rw [rows]
        exact Page.rowAt_ne_none_of_full full (fits.slotCount ▸ inside)
    | some stored =>
      obtain ⟨slot, inside, free, before, place, rowsAfter, e₁, frame, reworked, volume⟩ :=
        tries.put seen fits.id
      have firstFree : f.FirstFree e (.ofNat next) slot :=
        { page := number.symm ▸ Nat.le_of_lt more
          inside := fits.slotCount ▸ inside
          free := (rows slot).trans free
          behind := fun last => absurd (number.symm.trans last) (Nat.ne_of_lt more)
          before := fun m s inside lower => by
            rcases lower with below | ⟨rfl, left⟩
            · exact passed m s (number ▸ UInt32.lt_iff_toNat_lt.1 below) inside
            · rw [rows]
              exact before _ (UInt16.lt_iff_toNat_lt.1 left) }
      refine ⟨_, slot, firstFree, place, fun s => ?_, e₁, frame, reworked, ?_⟩
      · rw [rowsAfter, rows, fits.place.2.2.2]
        simp only [UInt16.toNat_inj]
      · rw [number, if_pos more]
        exact volume

variable (t) in
/-- **If all pages are full**, the row goes into the first slot of the page that is
appended. -/
theorem leads_appended (last : next = f.count e.volume) :
    Leads (fun _ => False) (f.Finds t row e)
      (atPage stage full ((Engine.tryInsert t row ⟨f.table, f.pageCount e.volume⟩).on
        { e with volume := (f.appendPage e.volume).2 })) := by
  subst last
  have seen := clear.pageSeen_append
  have append : Quietly (f.Appends True) e { e with volume := (f.appendPage e.volume).2 } :=
    .single (.append f ⟨rfl, fun _ => clear.whole.toNat_pageCount_le⟩)
  have tries := Engine.tries_tryInsert (f.Appends True) t ⟨f.table, f.pageCount e.volume⟩ row
    (Quietly.orderly append clear.orderly)
  cases tried : (Engine.tryInsert t row ⟨f.table, f.pageCount e.volume⟩).on
    { e with volume := (f.appendPage e.volume).2 } with | mk outcome e' =>
  rw [tried] at tries
  cases outcome with
  | error halt => exact tries.barred seen clear.room conforms layout
  | ok stored =>
    cases stored with
    | none =>
      obtain ⟨-, -, -, ⟨q, seen', full⟩, -⟩ := tries
      obtain rfl := Except.ok.inj (seen.symm.trans seen')
      rw [hasFreeSlot_emptyPage] at full
      cases full
    | some stored =>
      obtain ⟨slot, -, -, before, place, rows, e₁, frame, reworked, volume⟩ := tries.put seen rfl
      -- the page is empty, so the first slot is free
      have first : slot = 0 := by
        by_contra later
        have pos : 0 < slot.toNat := Nat.pos_of_ne_zero fun zero => later (UInt16.toNat_inj.1 zero)
        exact before 0 pos (rowAt_emptyPage ..)
      subst first
      have number := clear.toNat_pageCount
      have firstFree : f.FirstFree e (f.pageCount e.volume) 0 :=
        { page := Nat.le_of_eq number
          inside := f.slots_pos
          free := clear.seen_behind 0
          behind := fun _ => rfl
          before := fun m s inside lower => by
            rcases lower with below | ⟨-, left⟩
            · exact passed m s (number ▸ UInt32.lt_iff_toNat_lt.1 below) inside
            · exact absurd (UInt16.lt_iff_toNat_lt.1 left) (Nat.not_lt_zero _) }
      refine ⟨_, 0, firstFree, place, fun s => ?_, e₁, frame, reworked.before append rfl, ?_⟩
      · rw [rows, rowAt_emptyPage, clear.seen_behind]
        simp only [← UInt16.toNat_inj]
        rfl
      · rw [number, if_neg (Nat.lt_irrefl _)]
        exact volume

end Step

/-- **Where an insertion with a clear way has come to**, with enough steps left: it looks
through pages, or has appended one. -/
inductive Seeks (f : HeapFile) (e : Engine) (steps : Nat) : InsertionStage × Engine → Prop
  | looking {next : Nat} {e' : Engine} (searched : f.Searched e next e')
      (there : next ≤ f.count e.volume) (enough : f.count e.volume - next + 2 ≤ steps) :
      Seeks f e steps (.scanning next (f.count e.volume), e')
  | appended {e' : Engine} (searched : f.Searched e (f.count e.volume) e') (enough : 1 ≤ steps) :
      Seeks f e steps (.appended (f.pageCount e.volume) (f.count e.volume),
        { e' with volume := (f.appendPage e.volume).2 })

variable (t) in
/-- **A step of an insertion with a clear way** leads on, or finds the place. -/
theorem Seeks.step {steps : Nat} (seeks : f.Seeks e (steps + 1) (stage, e'))
    (conforms : row.Conforms) (layout : row.schema.sameLayout f.schema = true) :
    Leads (f.Seeks e steps) (f.Finds t row e) ((f.insertStep t row).on (stage, e')) := by
  cases seeks with
  | @looking next _ searched there enough =>
    have volume := searched.volume
    rcases Nat.lt_or_eq_of_le there with more | rfl
    · rw [on_insertStep_tries (InsertionStage.tries?_of_lt more)]
      refine (leads_page t searched.clear conforms layout (fun m s lower inside => ?_)
        (volume ▸ more)).mono ?_ fun r finds => finds.before searched
      · rw [searched.seen]
        exact searched.passed m s lower inside
      · rintro ⟨_, e''⟩ ⟨rfl, later⟩
        exact .looking (searched.trans later) more (by omega)
    · rw [on_insertStep_append (Nat.lt_irrefl _), volume]
      exact .appended searched (by omega)
  | @appended e' searched enough =>
    rw [on_insertStep_tries rfl, ← searched.volume]
    refine (leads_appended t searched.clear conforms layout (fun m s lower inside => ?_)
      rfl).mono (fun s none => none.elim) fun r finds => finds.before searched
    rw [searched.seen]
    exact searched.passed m s (searched.volume ▸ lower) inside

variable (t row) in
/-- **A row goes into the first place that holds none**, as long as no lock is in the
way. -/
theorem finds_insertFrom (steps : Nat) (clear : e.Clear f) (conforms : row.Conforms)
    (layout : row.schema.sameLayout f.schema = true) (there : next ≤ f.count e.volume)
    (passed : ∀ (m : UInt32) (s : SlotId), m.toNat < next → s.toNat < f.slotCount →
      e.seen ⟨⟨f.table, m⟩, s⟩ ≠ none)
    (enough : (InsertionStage.scanning next (f.count e.volume)).need (f.count e.volume) ≤ steps) :
    f.Finds t row e ((f.insertFrom t row steps).on (.scanning next (f.count e.volume), e)) := by
  refine insertFrom_induction (I := f.Seeks e) (fun s seeks => ?_)
    (fun steps stage e' seeks => seeks.step t conforms layout)
    (.looking ⟨clear, .refl, rfl, rfl, fun _ _ => rfl, passed⟩ there enough)
  -- there is always a step left
  cases seeks with
  | looking searched there enough => omega
  | appended searched enough => omega

end HeapFile

end Tablespace
