import Tablespace.Heap.Scan
import Tablespace.Proofs.Page.Rows
import Tablespace.Proofs.Pool.Fetch

/-!
# What a scan gives

A scan only looks. As it goes, the rows that it has given and those that it
has at hand are the rows of the pages that it has behind it, in order, and its
transaction holds a lock on each of these pages (`HeapScan.Reading`). A scan
that has come to its end has all pages of the file behind it.

This is so as long as the page count of the file has not wrapped while the
scan was under way.
-/

namespace Tablespace

/-! ## The rows of a page, as they are seen -/

namespace Page

variable {p : Page}

/-- **The rows of a page**, which can always be read. -/
def rows (p : Page) : List Tuple :=
  match p.tuples with
  | .ok rows => rows
  | .error _ => []

/-- They are what is read from its slots. -/
theorem rows_eq (p : Page) : p.rows = (List.range p.slotCount).filterMap p.read? := by
  rw [rows, p.tuples_eq]

theorem tuples_eq_rows (p : Page) : p.tuples = .ok p.rows := by
  rw [p.tuples_eq, p.rows_eq]

/-- A page with nothing in its slots has no rows. -/
theorem rows_eq_nil (empty : ∀ slot, p.rowAt slot = none) : p.rows = [] := by
  rw [rows_eq, List.filterMap_eq_nil_iff]
  intro slot _
  rw [← Option.isNone_iff_eq_none, ← Option.not_isSome, isSome_read?, ← isSome_rowAt, empty]
  rfl

/-- A page has at most as many rows as slots. -/
theorem length_rows_le (p : Page) : p.rows.length ≤ Layout.maxSlots :=
  calc p.rows.length ≤ (List.range p.slotCount).length := by
        rw [rows_eq]
        exact List.length_filterMap_le ..
    _ = p.slotCount := List.length_range
    _ ≤ Layout.maxSlots := p.slots_le

end Page

namespace Engine

variable {e e' : Engine} {t : TxnId} {p : PageId} {q : Page} {f : HeapFile} {n : Nat}

/-- **The rows of a page**, as a fetch shows them. -/
def pageRows (e : Engine) (p : PageId) : List Tuple :=
  match e.pageSeen p with
  | .ok q => q.rows
  | .error _ => []

theorem pageRows_of_ok (seen : e.pageSeen p = .ok q) : e.pageRows p = q.rows := by
  rw [pageRows, seen]

/-- A page that shows no row has none. -/
theorem pageRows_eq_nil (empty : ∀ slot, e.seen ⟨p, slot⟩ = none) : e.pageRows p = [] := by
  cases seen : e.pageSeen p with
  | error cause => rw [pageRows, seen]
  | ok q =>
    rw [pageRows_of_ok seen]
    refine Page.rows_eq_nil fun slot => ?_
    have shown := empty (UInt16.ofNat slot)
    rw [Engine.seen, seen] at shown
    by_cases small : slot < 65536
    · simpa [rowsOf, Nat.mod_eq_of_lt small] using shown
    · have behind : ¬slot < q.slotCount := fun lt =>
        small (Nat.lt_of_lt_of_le lt q.slots_le)
      rw [Page.rowAt_eq, Page.isUsed, decide_eq_false behind, Bool.false_and,
        if_neg Bool.false_ne_true]

/-- **A page that shows the same in every slot has the same rows.** -/
theorem pageRows_congr (coherent : e.Coherent) (coherent' : e'.Coherent)
    (catalog : e'.catalog = e.catalog) (same : ∀ slot, e'.seen ⟨p, slot⟩ = e.seen ⟨p, slot⟩) :
    e'.pageRows p = e.pageRows p := by
  have none {x : Engine} {cause : Fault} (absent : x.pageSeen p = .error cause) (slot : SlotId) :
      x.seen ⟨p, slot⟩ = none := by
    rw [seen, absent]
    rfl
  cases now : e'.pageSeen p with
  | error cause =>
    rw [pageRows_eq_nil (none now),
      pageRows_eq_nil fun slot => (same slot).symm.trans (none now slot)]
  | ok q' =>
    cases before : e.pageSeen p with
    | error cause =>
      rw [pageRows_eq_nil (none before),
        pageRows_eq_nil fun slot => (same slot).trans (none before slot)]
    | ok q =>
      have like := coherent.alike_of_seen coherent' catalog before now
      have rows : ∀ slot, q'.rowAt slot = q.rowAt slot := Page.rowAt_congr like fun slot => by
        have shown := same slot
        rwa [seen, seen, now, before] at shown
      rw [pageRows_of_ok now, pageRows_of_ok before, Page.rows, Page.rows,
        Page.tuples_congr like rows]

/-- **The rows of the first pages of a table**, in order. -/
def rowsBefore (e : Engine) (table : TableId) (n : Nat) : List Tuple :=
  (List.range n).flatMap fun i => e.pageRows ⟨table, UInt32.ofNat i⟩

theorem rowsBefore_succ (e : Engine) (table : TableId) (n : Nat) :
    e.rowsBefore table (n + 1) = e.rowsBefore table n ++ e.pageRows ⟨table, UInt32.ofNat n⟩ := by
  rw [rowsBefore, rowsBefore, List.range_succ, List.flatMap_append, List.flatMap_singleton]

/-- **The rows that the pages from a number on show**, up to another, in
order. -/
def rowsFrom (e : Engine) (table : TableId) (n k : Nat) : List Tuple :=
  (List.range' n (k - n)).flatMap fun i => e.pageRows ⟨table, UInt32.ofNat i⟩

theorem rowsBefore_eq_append (e : Engine) (table : TableId) {n k : Nat} (fewer : n ≤ k) :
    e.rowsBefore table k = e.rowsBefore table n ++ e.rowsFrom table n k := by
  have split : List.range k = List.range n ++ List.range' n (k - n) := by
    have halves : List.range' 0 n ++ List.range' (0 + n) (k - n) = List.range' 0 (n + (k - n)) :=
      List.range'_append_1
    rwa [Nat.zero_add, Nat.add_sub_cancel' fewer, ← List.range_eq_range', ← List.range_eq_range',
      eq_comm] at halves
  rw [rowsBefore, rowsBefore, rowsFrom, split, List.flatMap_append]

theorem rowsBefore_congr {table : TableId}
    (same : ∀ i, i < n → e'.pageRows ⟨table, UInt32.ofNat i⟩ = e.pageRows ⟨table, UInt32.ofNat i⟩) :
    e'.rowsBefore table n = e.rowsBefore table n := by
  induction n with
  | zero => rfl
  | succ n ih =>
    rw [rowsBefore_succ, rowsBefore_succ, ih fun i hi => same i (Nat.lt_succ_of_lt hi),
      same n (Nat.lt_succ_self n)]

/-- A page that a scan comes to is not overrun: its number is below the page
count. -/
theorem not_overrun_of_lt (file : e.catalog.file f.table = .ok f)
    (h : n < (f.pageCount e.volume).toNat) : ¬e.Overrun ⟨f.table, UInt32.ofNat n⟩ := by
  rintro ⟨g, found, -, count⟩
  rw [file] at found
  cases found
  have bound : (f.pageCount e.volume).toNat < 4294967296 := UInt32.toNat_lt _
  have number := congrArg UInt32.toNat count
  rw [UInt32.toNat_ofNat', Nat.mod_eq_of_lt (Nat.lt_trans h bound)] at number
  omega

end Engine

namespace HeapScan

variable {s : HeapScan} {e e' : Engine} {given : List Tuple} {pos pos' : ScanPosition} {n : Nat}
  {steps : Option Nat}

/-! ## A scan only looks -/

/-- **Taking a page**: a fetch, and the rows of what it gives. -/
theorem on_take (state : ScanPosition) (e : Engine) :
    (s.take pos).on (state, e)
      = match (Engine.fetch s.txn ⟨s.file.table, UInt32.ofNat pos.next⟩ .shared).on e with
        | (.ok q, e') => (.ok (), { next := pos.next + 1, pending := q.rows }, e')
        | (.error halt, e') => (.error halt, { pos with waiting := halt = .wait }, e') := by
  unfold take
  rw [Turn.on_bind, Turn.on_tryCatch]
  simp only [Turn.on_within, Turn.on_bind]
  cases (Engine.fetch s.txn ⟨s.file.table, UInt32.ofNat pos.next⟩ .shared).on e with
    | mk outcome e' =>
  cases outcome with
  | error halt => rfl
  | ok q =>
    dsimp only
    rw [Page.tuples_eq_rows]
    rfl

/-- A scan takes pages until it has a row at hand or no page is left. -/
theorem on_fill :
    (s.fill (n + 1)).on (pos, e)
      = if pos.pending ≠ [] then (.ok true, pos, e)
        else if (s.file.pageCount e.volume).toNat ≤ pos.next ∧ pos.waiting = false then
          (.ok false, pos, e)
        else match (s.take pos).on (pos, e) with
          | (.ok (), pos', e') => (s.fill n).on (pos', e')
          | (.error halt, pos', e') => (.error halt, pos', e') := by
  rw [fill, Turn.on_bind_ok (Turn.on_get _)]
  dsimp only
  by_cases atHand : pos.pending = []
  · have none : (!pos.pending.isEmpty) = false := by simp [atHand]
    have last : (decide ((s.file.pageCount e.volume).toNat ≤ pos.next) && !pos.waiting)
        = decide ((s.file.pageCount e.volume).toNat ≤ pos.next ∧ pos.waiting = false) := by
      cases pos.waiting <;> simp
    rw [none, last, if_neg Bool.false_ne_true, if_neg (not_not_intro atHand)]
    by_cases done : (s.file.pageCount e.volume).toNat ≤ pos.next ∧ pos.waiting = false
    · rw [if_pos (decide_eq_true done), if_pos done]
      rfl
    · rw [if_neg (by simpa only [decide_eq_true_eq] using done), if_neg done, Turn.on_bind]
      cases (s.take pos).on (pos, e) with | mk outcome state => cases outcome <;> rfl
  · have some : (!pos.pending.isEmpty) = true := by simpa using atHand
    rw [some, if_pos rfl, if_pos atHand]
    rfl

theorem on_next :
    (s.next steps).on (pos, e) = match (s.hasNext steps).on (pos, e) with
      | (.ok _, pos', e') => match pos'.pending with
        | [] => (.error (.fault .noSuchElement), pos', e')
        | row :: pending => (.ok row, { pos' with pending := pending }, e')
      | (.error halt, pos', e') => (.error halt, pos', e') := by
  rw [next, Turn.on_bind]
  cases (s.hasNext steps).on (pos, e) with | mk outcome state =>
  cases outcome with
  | error halt => rfl
  | ok b =>
    obtain ⟨pos', e'⟩ := state
    dsimp only
    rw [Turn.on_bind_ok (Turn.on_get _)]
    dsimp only
    cases pos'.pending <;> rfl

section Closed

variable {R : Engine → Engine → Prop} (closed : Engine.FetchClosed s.txn R)

include closed

variable (pos) in
/-- All that taking a page does to the engine is to fetch it. -/
theorem take_closed (state : ScanPosition) : R e ((s.take pos).on (state, e)).2.2 := by
  have fetch := closed.fetch ⟨s.file.table, UInt32.ofNat pos.next⟩ .shared e
  rw [on_take]
  cases fetched : (Engine.fetch s.txn ⟨s.file.table, UInt32.ofNat pos.next⟩ .shared).on e with
  | mk outcome e' =>
    rw [fetched] at fetch
    cases outcome <;> exact fetch

theorem fill_closed : R e ((s.fill n).on (pos, e)).2.2 := by
  induction n generalizing pos e with
  | zero => exact closed.refl _
  | succ n ih =>
    rw [on_fill]
    have took := take_closed (e := e) pos closed pos
    split
    · exact closed.refl _
    · split
      · exact closed.refl _
      · cases h : (s.take pos).on (pos, e) with | mk outcome state =>
        rw [h] at took
        cases outcome with
        | error halt => exact took
        | ok _ => exact closed.trans _ _ _ took ih

variable (pos e steps) in
theorem hasNext_closed : R e ((s.hasNext steps).on (pos, e)).2.2 := by
  rw [hasNext, Turn.on_bind_ok (Turn.on_get _)]
  exact fill_closed closed

variable (pos e steps) in
theorem next_closed : R e ((s.next steps).on (pos, e)).2.2 := by
  have asked := hasNext_closed e pos steps closed
  rw [on_next]
  cases h : (s.hasNext steps).on (pos, e) with | mk outcome state =>
  rw [h] at asked
  cases outcome with
  | error halt => exact asked
  | ok b =>
    obtain ⟨pos', e'⟩ := state
    dsimp only
    split <;> exact asked

end Closed

variable (s pos) in
/-- Taking a page is a look. -/
theorem looks_take (state : ScanPosition) (coherent : e.Coherent) :
    Engine.Looks s.txn e ((s.take pos).on (state, e)).2.2 :=
  take_closed pos (Engine.fetchClosed_looks s.txn) state coherent

variable (s pos steps) in
theorem looks_hasNext (coherent : e.Coherent) :
    Engine.Looks s.txn e ((s.hasNext steps).on (pos, e)).2.2 :=
  hasNext_closed _ _ _ (Engine.fetchClosed_looks s.txn) coherent

variable (s pos steps) in
theorem looks_next (coherent : e.Coherent) :
    Engine.Looks s.txn e ((s.next steps).on (pos, e)).2.2 :=
  next_closed _ _ _ (Engine.fetchClosed_looks s.txn) coherent

/-! ## The rows behind a scan -/

/-- **A scan under way**: it has some pages of the file behind it. -/
structure Reading (s : HeapScan) (given : List Tuple) (pos : ScanPosition) (e : Engine) : Prop where
  /-- The pages behind it are pages of the file. -/
  bounded : pos.next ≤ (s.file.pageCount e.volume).toNat
  /-- So is the page that it waits for. -/
  waiting : pos.waiting = true → pos.next < (s.file.pageCount e.volume).toNat
  /-- The transaction holds the pages behind it. -/
  held : ∀ i, i < pos.next → e.locks.mode? s.txn ⟨s.file.table, UInt32.ofNat i⟩ ≠ none
  /-- The rows given and those at hand are those of the pages behind it. -/
  rows : given ++ pos.pending = e.rowsBefore s.file.table pos.next

/-- **A scan that has come to its end.** -/
def AtEnd (s : HeapScan) (pos : ScanPosition) (e : Engine) : Prop :=
  pos.pending = [] ∧ pos.next = (s.file.pageCount e.volume).toNat

/-- How many rows there can be still to come. -/
def left (s : HeapScan) (pos : ScanPosition) (e : Engine) : Nat :=
  pos.pending.length + ((s.file.pageCount e.volume).toNat - pos.next) * Layout.maxSlots

/-- A scan that has just been started has no page behind it. -/
theorem reading_start (s : HeapScan) (e : Engine) : s.Reading [] start e :=
  ⟨Nat.zero_le _, by simp [start], by simp [start], rfl⟩

/-- The rows of the pages behind a scan stay as they are, as long as its
transaction holds them. -/
theorem Reading.keep (reading : s.Reading given pos e) (coherent : e.Coherent)
    (coherent' : e'.Coherent) (catalog : e'.catalog = e.catalog)
    (bounded : pos.next ≤ (s.file.pageCount e'.volume).toNat)
    (waiting : pos.waiting = true → pos.next < (s.file.pageCount e'.volume).toNat)
    (held : ∀ p, e.locks.mode? s.txn p ≠ none → e'.locks.mode? s.txn p ≠ none)
    (seen : ∀ i, i < pos.next → ∀ slot, e'.seen ⟨⟨s.file.table, UInt32.ofNat i⟩, slot⟩
      = e.seen ⟨⟨s.file.table, UInt32.ofNat i⟩, slot⟩) : s.Reading given pos e' where
  bounded := bounded
  waiting := waiting
  held i hi := held _ (reading.held i hi)
  rows := by
    rw [reading.rows]
    exact (Engine.rowsBefore_congr fun i hi =>
      Engine.pageRows_congr coherent coherent' catalog (seen i hi)).symm

/-- A look takes nothing from a scan. -/
theorem Reading.looks (reading : s.Reading given pos e) (coherent : e.Coherent)
    (file : e.catalog.file s.file.table = .ok s.file) (looks : Engine.Looks s.txn e e') :
    s.Reading given pos e' := by
  have effect := looks.moves.effect coherent
  refine reading.keep coherent effect.coherent effect.catalog (looks.volume ▸ reading.bounded)
    (looks.volume ▸ reading.waiting) looks.held fun i hi slot => ?_
  exact looks.seen_eq coherent
    (Engine.not_overrun_of_lt file (Nat.lt_of_lt_of_le hi reading.bounded))

/-! ## What the methods of a scan give -/

section Methods

variable (coherent : e.Coherent) (file : e.catalog.file s.file.table = .ok s.file)
  (reading : s.Reading given pos e)

include coherent file reading

/-- **Taking a page** puts it behind the scan, with its rows at hand. -/
theorem take_ok (none : pos.pending = []) (more : pos.next < (s.file.pageCount e.volume).toNat)
    (h : (s.take pos).on (pos, e) = (.ok (), pos', e')) :
    s.Reading given pos' e' ∧ pos'.next = pos.next + 1 ∧ pos'.pending.length ≤ Layout.maxSlots := by
  rw [on_take] at h
  cases fetched : (Engine.fetch s.txn ⟨s.file.table, UInt32.ofNat pos.next⟩ .shared).on e with
  | mk outcome e₁ =>
    rw [fetched] at h
    cases outcome with
    | error halt => cases h
    | ok q =>
      cases h
      obtain ⟨looks, modes, seen, -⟩ := Engine.fetch_ok coherent fetched
      have kept := reading.looks coherent file looks
      have effect := looks.moves.effect coherent
      have intact := Engine.not_overrun_of_lt file more
      have rows : e'.pageRows ⟨s.file.table, UInt32.ofNat pos.next⟩ = q.rows := by
        rw [Engine.pageRows_congr coherent effect.coherent effect.catalog
          fun slot => looks.seen_eq coherent intact]
        exact Engine.pageRows_of_ok seen
      refine ⟨⟨?_, by simp, fun i hi => ?_, ?_⟩, rfl, q.length_rows_le⟩
      · rw [looks.volume]
        exact more
      · rcases Nat.lt_succ_iff_lt_or_eq.1 hi with before | last
        · exact kept.held i before
        · rw [modes, last, LockModes.set, if_pos ⟨rfl, rfl⟩]
          simp
      · -- nothing was at hand, so all rows behind the scan had been given
        have before := kept.rows
        rw [none, List.append_nil] at before
        rw [Engine.rowsBefore_succ, ← before, rows]

/-- A scan that cannot take a page stays before it. -/
theorem take_error {halt : Halt} (more : pos.next < (s.file.pageCount e.volume).toNat)
    (h : (s.take pos).on (pos, e) = (.error halt, pos', e')) :
    s.Reading given pos' e' ∧ pos'.next = pos.next ∧ pos'.pending = pos.pending
      ∧ halt ≠ .fault .noSuchElement := by
  have looks := looks_take s pos pos coherent
  rw [h] at looks
  rw [on_take] at h
  cases fetched : (Engine.fetch s.txn ⟨s.file.table, UInt32.ofNat pos.next⟩ .shared).on e with
  | mk outcome e₁ =>
    rw [fetched] at h
    cases outcome with
    | ok q => cases h
    | error halt =>
      cases h
      have kept := reading.looks coherent file looks
      exact ⟨⟨kept.bounded, fun _ => by rw [looks.volume]; exact more, kept.held, kept.rows⟩, rfl,
        rfl, (Engine.fetch_error coherent fetched).2⟩

/-- **Filling a scan** leaves it under way. If it says that there is a row,
then there is one at hand; if it says that there is none, then the scan is at
its end. -/
theorem fill_spec :
    ∃ outcome pos' e', (s.fill n).on (pos, e) = (outcome, pos', e')
      ∧ s.Reading given pos' e' ∧ s.left pos' e' ≤ s.left pos e
      ∧ (outcome = .ok true → pos'.pending ≠ []) ∧ (outcome = .ok false → s.AtEnd pos' e')
      ∧ outcome ≠ .error (.fault .noSuchElement) := by
  induction n generalizing pos e with
  | zero => exact ⟨_, _, _, rfl, reading, Nat.le_refl _, by simp, by simp, by simp⟩
  | succ n ih =>
    rw [on_fill]
    by_cases atHand : pos.pending = []
    · rw [if_neg (not_not_intro atHand)]
      by_cases done : (s.file.pageCount e.volume).toNat ≤ pos.next ∧ pos.waiting = false
      · rw [if_pos done]
        exact ⟨_, _, _, rfl, reading, Nat.le_refl _, by simp,
          fun _ => ⟨atHand, Nat.le_antisymm reading.bounded done.1⟩, by simp⟩
      · -- a scan that waits for a page goes on with that page
        have more : pos.next < (s.file.pageCount e.volume).toNat := by
          by_cases waits : pos.waiting = true
          · exact reading.waiting waits
          · exact Nat.not_le.1 fun le => done ⟨le, by simpa using waits⟩
        rw [if_neg done]
        have looks := looks_take s pos pos coherent
        cases took : (s.take pos).on (pos, e) with | mk outcome state =>
        obtain ⟨pos₁, e₁⟩ := state
        rw [took] at looks
        have same : s.file.pageCount e₁.volume = s.file.pageCount e.volume := by rw [looks.volume]
        cases outcome with
        | error halt =>
          obtain ⟨kept, next, pending, other⟩ := take_error coherent file reading more took
          exact ⟨_, _, _, rfl, kept, by rw [left, left, same, next, pending], by simp, by simp,
            by simpa using other⟩
        | ok _ =>
          obtain ⟨kept, next, few⟩ := take_ok coherent file reading atHand more took
          have effect := looks.moves.effect coherent
          obtain ⟨outcome, pos', e', run, reading', less, ends⟩ :=
            ih effect.coherent (effect.catalog ▸ file) kept
          refine ⟨outcome, pos', e', run, reading', Nat.le_trans less ?_, ends⟩
          -- the page taken gave at most as many rows as it was reckoned with
          have one : (s.file.pageCount e.volume).toNat - pos.next
              = ((s.file.pageCount e.volume).toNat - (pos.next + 1)) + 1 := by omega
          rw [left, left, same, next, one, Nat.add_mul, atHand, List.length_nil]
          omega
    · rw [if_pos atHand]
      exact ⟨_, _, _, rfl, reading, Nat.le_refl _, fun _ => atHand, by simp, by simp⟩

/-- **Asking a scan for a row** leaves it under way. -/
theorem hasNext_spec :
    ∃ outcome pos' e', (s.hasNext steps).on (pos, e) = (outcome, pos', e')
      ∧ s.Reading given pos' e' ∧ s.left pos' e' ≤ s.left pos e
      ∧ (outcome = .ok true → pos'.pending ≠ []) ∧ (outcome = .ok false → s.AtEnd pos' e')
      ∧ outcome ≠ .error (.fault .noSuchElement) := by
  rw [hasNext, Turn.on_bind_ok (Turn.on_get _)]
  exact fill_spec coherent file reading

/-- **The next row of a scan** is the next row of the pages; a scan that has
none is at its end. -/
theorem next_spec :
    ∃ outcome pos' e', (s.next steps).on (pos, e) = (outcome, pos', e')
      ∧ match outcome with
        | .ok row => s.Reading (given ++ [row]) pos' e' ∧ s.left pos' e' < s.left pos e
        | .error halt =>
          s.Reading given pos' e' ∧ (halt = .fault .noSuchElement → s.AtEnd pos' e') := by
  obtain ⟨outcome, pos₁, e₁, run, reading₁, less, some, none, other⟩ :=
    hasNext_spec coherent file reading
  rw [on_next, run]
  cases outcome with
  | error halt => exact ⟨_, _, _, rfl, reading₁, fun eq => absurd (congrArg _ eq) other⟩
  | ok b =>
    dsimp only
    cases pending : pos₁.pending with
    | nil =>
      refine ⟨_, _, _, rfl, reading₁, fun _ => none ?_⟩
      cases b with
      | false => rfl
      | true => exact absurd pending (some rfl)
    | cons row rest =>
      refine ⟨_, _, _, rfl, ⟨reading₁.bounded, reading₁.waiting, reading₁.held, ?_⟩, ?_⟩
      · rw [← reading₁.rows, pending, List.append_assoc]
        rfl
      · rw [left, pending, List.length_cons] at less
        rw [left]
        dsimp only
        omega

end Methods

end HeapScan

end Tablespace
