import Tablespace.Proofs.Heap.Listing

/-!
# Walking over a file

A scan walks over the pages of a file. What that does to the engine is told by the pages
between the one it sets out from and the one it comes to: the transaction has locked them
shared, unless it held them exclusive, and nothing else is changed (`Engine.Walks`).

A walk is stopped at a page for two reasons only (`Engine.Hinders`): another transaction
holds the page exclusive, or all pages of a full cache are dirty. It never finds a page
that cannot be read, as long as the engine has the file at hand.

What a scan gives is then told by the list of rows of the file: those given and those at
hand are the rows of the pages behind it (`HeapScan.Passing`). Asked for a row it goes on
to the next page that has one, or to the end, unless it is stopped
(`HeapScan.asked_hasNext`); and where it is stopped, nothing is lost and nothing is given.
-/

namespace Tablespace

/-! ## The locks of a walk -/

namespace LockModes

variable {m : LockModes} {t : TxnId} {table : TableId} {first mid last n : Nat}

/-- **The locks after a walk** over the pages of a table from a number up to another one:
those pages are held shared, unless they were held exclusive. -/
def walked (m : LockModes) (t : TxnId) (table : TableId) (first last : Nat) : LockModes :=
  fun u p => if u = t ∧ p.table = table ∧ first ≤ p.number.toNat ∧ p.number.toNat < last then
    some (LockMode.join (m u p) .shared) else m u p

theorem walked_self : m.walked t table n n = m := by
  funext u p
  rw [walked, if_neg (by omega)]

theorem walked_walked (before : first ≤ mid) (behind : mid ≤ last) :
    (m.walked t table first mid).walked t table mid last = m.walked t table first last := by
  funext u p
  unfold walked
  by_cases mine : u = t ∧ p.table = table
  · simp only [mine, true_and]
    -- each page lies on one side of the page in between
    by_cases near : p.number.toNat < mid
    · rw [if_neg (by omega)]
      simp only [near, show p.number.toNat < last by omega]
    · simp only [near, and_false, if_false]
      simp only [show mid ≤ p.number.toNat by omega, show first ≤ p.number.toNat by omega]
  · simp only [← and_assoc, mine, false_and, if_false]

/-- **One page is walked over** when its lock is asked for. -/
theorem walked_succ (number : (UInt32.ofNat n).toNat = n) :
    m.walked t table n (n + 1)
      = m.set t ⟨table, .ofNat n⟩ (some (LockMode.join (m t ⟨table, .ofNat n⟩) .shared)) := by
  funext u p
  have here : p.table = table ∧ n ≤ p.number.toNat ∧ p.number.toNat < n + 1
      ↔ p = ⟨table, .ofNat n⟩ := by
    obtain ⟨table', number'⟩ := p
    simp only [PageId.mk.injEq, ← UInt32.toNat_inj, number]
    exact and_congr_right fun _ => by omega
  unfold walked set
  simp only [here]
  split
  · rename_i same
    rw [same.1, same.2]
  · rfl

end LockModes

/-- **How far the locks go of a walk that is stopped at a page**: if it is for want of room,
the page is locked. -/
def Halt.reached (halt : Halt) (n : Nat) : Nat :=
  if halt = .fault .poolFull then n + 1 else n

namespace Engine

variable {e e' e'' : Engine} {t : TxnId} {p : PageId} {f : HeapFile}
  {first mid last n : Nat} {halt : Halt}

/-- **A walk over the pages of a file**: the pages are locked, and nothing else is
changed. -/
structure Walks (f : HeapFile) (t : TxnId) (first last : Nat) (e e' : Engine) : Prop where
  locks : e'.locks.mode? = LockModes.walked e.locks.mode? t f.table first last
  catalog : e'.catalog = e.catalog
  volume : e'.volume = e.volume
  dirty : ∀ u p, e'.DirtyFor u p ↔ e.DirtyFor u p
  listed : ∀ rows, f.Lists e rows → f.Lists e' rows

namespace Walks

theorem refl (f : HeapFile) (t : TxnId) (n : Nat) (e : Engine) : Walks f t n n e e :=
  ⟨LockModes.walked_self.symm, rfl, rfl, fun _ _ => .rfl, fun _ => id⟩

theorem trans (one : Walks f t first mid e e') (other : Walks f t mid last e' e'')
    (before : first ≤ mid) (behind : mid ≤ last) : Walks f t first last e e'' where
  locks := by rw [other.locks, one.locks, LockModes.walked_walked before behind]
  catalog := other.catalog.trans one.catalog
  volume := other.volume.trans one.volume
  dirty u p := (other.dirty u p).trans (one.dirty u p)
  listed rows lists := other.listed rows (one.listed rows lists)

theorem pageCount (walks : Walks f t first last e e') :
    f.pageCount e'.volume = f.pageCount e.volume := by
  rw [walks.volume]

theorem undisturbed (walks : Walks f t first last e e') : f.Undisturbed e e' :=
  ⟨walks.listed, UInt32.le_of_eq walks.pageCount.symm⟩

/-- Others hold what they held. -/
theorem mode?_of_ne (walks : Walks f t first last e e') {u : TxnId} (other : u ≠ t) :
    e'.locks.mode? u p = e.locks.mode? u p := by
  rw [walks.locks, LockModes.walked, if_neg fun mine => other mine.1]

end Walks

/-- **What stops a walk at a page**: another transaction holds it exclusive, or there is no
room for it. -/
inductive Hinders (e : Engine) (t : TxnId) (p : PageId) : Halt → Prop
  /-- Another transaction holds the page. It is waited for, or there is a deadlock. -/
  | lock {halt : Halt} (u : TxnId) (other : u ≠ t) (held : e.locks.mode? u p = some .exclusive)
      (barred : halt.Barred t) : Hinders e t p halt
  /-- All pages of a full cache are dirty. -/
  | room (full : ¬e.HasRoom) : Hinders e t p (.fault .poolFull)

/-! ## Fetching a page of the file -/

/-- **A shared fetch that is cut short**: another transaction holds the page, or the lock
is taken and the page cannot be loaded. -/
theorem fetch_shared_error (failed : (fetch t p .shared).on e = (.error halt, e')) :
    ((∃ u, u ≠ t ∧ e.locks.mode? u p = some .exclusive) ∧ halt.Barred t
        ∧ e'.locks.mode? = e.locks.mode?)
      ∨ ∃ locks, (load p).on { e with locks := locks } = (.error halt, e')
        ∧ locks.mode?
          = LockModes.set e.locks.mode? t p (some (LockMode.join (e.locks.mode? t p) .shared)) := by
  have barrier (refused : (e.locks.request t p .shared).1 ≠ .granted) :
      ∃ u, u ≠ t ∧ e.locks.mode? u p = some .exclusive := by
    have taken := mt LockTable.request_granted_iff.2 refused
    simp only [LockModes.Free, not_forall, Bool.not_eq_false] at taken
    obtain ⟨u, held, other, holds, conflicts⟩ := taken
    exact ⟨u, other, LockMode.conflicts_shared_iff.1 conflicts ▸ holds⟩
  rw [fetch, Turn.on_bind, on_lock] at failed
  cases answer : (e.locks.request t p .shared).1 with
  | granted =>
    rw [answer] at failed
    exact .inr ⟨_, failed, LockTable.mode?_request_of_granted answer⟩
  | blocked =>
    have refused : (e.locks.request t p .shared).1 ≠ .granted := by rw [answer]; simp
    rw [answer] at failed
    cases failed
    exact .inl ⟨barrier refused, .inl rfl, LockTable.mode?_request_of_not_granted refused⟩
  | deadlock holder =>
    have refused : (e.locks.request t p .shared).1 ≠ .granted := by rw [answer]; simp
    rw [answer] at failed
    cases failed
    exact .inl ⟨barrier refused, .inr ⟨holder, rfl⟩, LockTable.mode?_request_of_not_granted refused⟩

/-- **A page that can be seen** is loaded, if there is room for it. -/
theorem load_error_of_seen {d : Page} (seen : e.pageSeen p = .ok d)
    (failed : (load p).on e = (.error halt, e')) : halt = .fault .poolFull ∧ ¬e.HasRoom := by
  have loads := loads_load p e
  rw [failed] at loads
  obtain ⟨absent, cause, rfl, reason⟩ := loads
  rw [pageSeen_of_absent absent] at seen
  have full : ¬e.HasRoom := by
    refine reason.resolve_right fun unread => ?_
    rw [seen] at unread
    cases unread
  refine ⟨?_, full⟩
  rw [on_load_of_absent absent] at failed
  cases made : (makeRoom p).on e with | mk outcome roomy =>
  rw [made] at failed
  obtain ⟨cache, rfl, -, refused⟩ := peek?_makeRoom made
  cases outcome with
  | error halt =>
    cases failed
    exact refused _ rfl
  | ok _ =>
    have same : readPage { e with cache := cache } p = .ok d := seen
    dsimp only at failed
    rw [same] at failed
    cases failed

/-- **What it comes to when a page of the file is fetched**, with a shared lock: its rows,
or something is in the way. -/
def Passes (f : HeapFile) (t : TxnId) (n : Nat) (e : Engine) : Except Halt Page × Engine → Prop
  | (.ok q, e') => e'.Hosts f ∧ Walks f t n (n + 1) e e' ∧ (e.HasRoom → e'.HasRoom)
    ∧ q.rows = e.pageRows ⟨f.table, .ofNat n⟩
  | (.error halt, e') => e'.Hosts f ∧ Walks f t n (halt.reached n) e e'
    ∧ e.Hinders t ⟨f.table, .ofNat n⟩ halt

namespace Hosts

variable (hosts : e.Hosts f)

include hosts

/-- **What is quiet and writes no file** keeps the file at hand, and lists the same rows. -/
theorem quietly (quietly : Quietly (fun _ _ => False) e e') (volume : e'.volume = e.volume) :
    e'.Hosts f ∧ ∀ rows, f.Lists e rows → f.Lists e' rows := by
  have bears : f.Bears fun _ _ => False := fun _ _ may => may.elim
  refine ⟨⟨Quietly.orderly quietly hosts.orderly, hosts.tends.steps bears (Quietly.steps quietly),
    Quietly.catalog quietly ▸ hosts.file, volume ▸ hosts.whole⟩, ?_⟩
  refine (HeapFile.undisturbed_of_seen volume fun n slot counted => ?_).listed
  refine (hosts.tends.quietly (p := ⟨f.table, n⟩) bears hosts.file quietly (fun hit => ?_) slot).2
  rw [volume] at hit
  exact absurd (hit.2 ▸ counted) (UInt32.lt_irrefl _)

variable (t) in
/-- **A page of the file is fetched.** -/
theorem fetch (there : n < (f.pageCount e.volume).toNat) :
    Passes f t n e ((Engine.fetch t ⟨f.table, .ofNat n⟩ .shared).on e) := by
  obtain ⟨number, counted⟩ := ofNat_lt_pageCount there
  obtain ⟨d, seen, -⟩ := hosts.pageSeen (hosts.lt_pages counted)
  have quietly := quietly_fetch (fun _ _ => False) hosts.orderly t ⟨f.table, .ofNat n⟩ .shared
  obtain ⟨fetches, volume⟩ := fetches_fetch t ⟨f.table, .ofNat n⟩ .shared e
  cases fetched : (Engine.fetch t ⟨f.table, .ofNat n⟩ .shared).on e with | mk outcome e' =>
  rw [fetched] at quietly fetches volume
  obtain ⟨hosts', listed⟩ := hosts.quietly quietly volume
  have walks {last : Nat}
      (locks : e'.locks.mode? = LockModes.walked e.locks.mode? t f.table n last) :
      Walks f t n last e e' :=
    ⟨locks, Quietly.catalog quietly, volume, fun _ _ => Quietly.dirtyFor_iff quietly, listed⟩
  cases outcome with
  | ok q =>
    obtain ⟨modes, shown, -, room⟩ := fetches
    refine ⟨hosts', walks (modes.trans (LockModes.walked_succ number).symm), room, ?_⟩
    rw [pageRows_of_ok shown]
  | error halt =>
    refine ⟨hosts', ?_⟩
    rcases fetch_shared_error fetched with
      ⟨⟨u, other, held⟩, barred, modes⟩ | ⟨locks, failed, modes⟩
    · have here : halt.reached n = n := if_neg fun full => by
        rcases barred with wait | ⟨holder, deadlock⟩
        · cases wait.symm.trans full
        · cases deadlock.symm.trans full
      refine ⟨walks ?_, .lock u other held barred⟩
      rw [here, modes, LockModes.walked_self]
    · obtain ⟨rfl, full⟩ := load_error_of_seen (e := { e with locks := locks }) seen failed
      have same := (locks_volume_load ⟨f.table, .ofNat n⟩ { e with locks := locks }).1
      rw [failed] at same
      refine ⟨walks ?_, .room full⟩
      rw [show e'.locks = locks from same, modes]
      exact (LockModes.walked_succ number).symm

end Hosts

end Engine

namespace HeapScan

open Engine (Hosts Walks)

variable {s : HeapScan} {e e' : Engine} {given : List Tuple} {pos pos' : ScanPosition} {fuel : Nat}

/-! ## Taking pages -/

/-- **A scan that has some pages of the file behind it**: the rows that it has given and
those that it has at hand are the rows of these pages. -/
structure Passing (s : HeapScan) (given : List Tuple) (pos : ScanPosition) (e : Engine) : Prop where
  bounded : pos.next ≤ (s.file.pageCount e.volume).toNat
  /-- The page that it waits for is a page of the file. -/
  waiting : pos.waiting = true → pos.next < (s.file.pageCount e.volume).toNat
  rows : given ++ pos.pending = e.rowsBefore s.file.table pos.next

/-- A scan that has just been started has no page behind it. -/
theorem passing_start (s : HeapScan) (e : Engine) : s.Passing [] start e :=
  ⟨Nat.zero_le _, fun waits => (by cases waits), rfl⟩

/-- **A scan goes on where it is** after anything that leaves the file undisturbed. -/
theorem Passing.keep (passing : s.Passing given pos e) (hosts : e.Hosts s.file)
    (hosts' : e'.Hosts s.file) (undisturbed : s.file.Undisturbed e e') :
    s.Passing given pos e' := by
  have counted := UInt32.le_iff_toNat_le.1 undisturbed.counted
  refine ⟨Nat.le_trans passing.bounded counted,
    fun waits => Nat.lt_of_lt_of_le (passing.waiting waits) counted, ?_⟩
  rw [passing.rows, hosts.rowsBefore_eq hosts' undisturbed passing.bounded]

/-- **What it comes to when a scan takes a page**: the page is behind it with its rows at
hand, or the scan stays before it. -/
def Steps (s : HeapScan) (given : List Tuple) (pos : ScanPosition) (e : Engine) :
    Except Halt Unit × ScanPosition × Engine → Prop
  | (.ok (), pos', e') => e'.Hosts s.file ∧ s.Passing given pos' e' ∧ pos'.next = pos.next + 1
    ∧ Walks s.file s.txn pos.next pos'.next e e' ∧ (e.HasRoom → e'.HasRoom)
  | (.error halt, pos', e') => e'.Hosts s.file ∧ s.Passing given pos' e' ∧ pos'.next = pos.next
    ∧ Walks s.file s.txn pos.next (halt.reached pos.next) e e'
    ∧ e.Hinders s.txn ⟨s.file.table, .ofNat pos.next⟩ halt

/-- **Taking a page.** -/
theorem steps_take (hosts : e.Hosts s.file) (passing : s.Passing given pos e)
    (none : pos.pending = []) (more : pos.next < (s.file.pageCount e.volume).toNat) :
    s.Steps given pos e ((s.take pos).on (pos, e)) := by
  have passes := hosts.fetch s.txn more
  rw [on_take]
  cases fetched : (Engine.fetch s.txn ⟨s.file.table, .ofNat pos.next⟩ .shared).on e with
  | mk outcome e' =>
  rw [fetched] at passes
  cases outcome with
  | ok q =>
    obtain ⟨hosts', walks, room, shown⟩ := passes
    have bounded : pos.next + 1 ≤ (s.file.pageCount e'.volume).toNat := by
      rw [walks.pageCount]
      exact more
    refine ⟨hosts', ⟨bounded, fun waits => (by cases waits), ?_⟩, rfl, walks, room⟩
    -- nothing was at hand, so all rows behind the scan had been given
    have before := passing.rows
    rw [none, List.append_nil] at before
    rw [hosts.rowsBefore_eq hosts' walks.undisturbed more, Engine.rowsBefore_succ, ← before, shown]
  | error halt =>
    obtain ⟨hosts', walks, hinders⟩ := passes
    have kept := passing.keep hosts hosts' walks.undisturbed
    exact ⟨hosts', ⟨kept.bounded, fun _ => walks.pageCount ▸ more, kept.rows⟩, rfl, walks, hinders⟩

/-- **What it comes to when a scan is asked for a row**: it has one at hand, it is at the
end, or it is stopped at a page. -/
def Asked (s : HeapScan) (given : List Tuple) (pos : ScanPosition) (e : Engine) :
    Except Halt Bool × ScanPosition × Engine → Prop
  | (.ok more, pos', e') => e'.Hosts s.file ∧ s.Passing given pos' e'
    ∧ Walks s.file s.txn pos.next pos'.next e e' ∧ pos.next ≤ pos'.next
    ∧ if more then pos'.pending ≠ [] else s.AtEnd pos' e'
  | (.error halt, pos', e') => e'.Hosts s.file ∧ s.Passing given pos' e'
    ∧ Walks s.file s.txn pos.next (halt.reached pos'.next) e e' ∧ pos.next ≤ pos'.next
    ∧ e.Hinders s.txn ⟨s.file.table, .ofNat pos'.next⟩ halt

/-- What stands in the way of a scan that has taken a page stood in its way before. -/
theorem Asked.before {pos₁ : ScanPosition} {e₁ : Engine}
    {result : Except Halt Bool × ScanPosition × Engine} (asked : s.Asked given pos₁ e₁ result)
    (walks : Walks s.file s.txn pos.next pos₁.next e e₁) (room : e.HasRoom → e₁.HasRoom)
    (next : pos.next ≤ pos₁.next) : s.Asked given pos e result := by
  obtain ⟨outcome, pos', e'⟩ := result
  cases outcome with
  | ok more =>
    obtain ⟨hosts', passing', walks', next', rest⟩ := asked
    exact ⟨hosts', passing', walks.trans walks' next next', Nat.le_trans next next', rest⟩
  | error halt =>
    obtain ⟨hosts', passing', walks', next', hinders⟩ := asked
    have behind : pos₁.next ≤ halt.reached pos'.next := by
      rw [Halt.reached]
      split <;> omega
    refine ⟨hosts', passing', walks.trans walks' next behind, Nat.le_trans next next', ?_⟩
    cases hinders with
    | lock u other held barred => exact .lock u other (walks.mode?_of_ne other ▸ held) barred
    | room full => exact .room fun has => full (room has)

/-- **A scan is filled**, page by page. -/
theorem asked_fill (hosts : e.Hosts s.file) (passing : s.Passing given pos e)
    (enough : (s.file.pageCount e.volume).toNat - pos.next < fuel) :
    s.Asked given pos e ((s.fill fuel).on (pos, e)) := by
  induction fuel generalizing pos e with
  | zero => exact absurd enough (Nat.not_lt_zero _)
  | succ fuel ih =>
    rw [on_fill]
    by_cases atHand : pos.pending = []
    · rw [if_neg (not_not_intro atHand)]
      by_cases done : (s.file.pageCount e.volume).toNat ≤ pos.next ∧ pos.waiting = false
      · rw [if_pos done]
        have last := Nat.le_antisymm passing.bounded done.1
        exact ⟨hosts, passing, .refl .., Nat.le_refl _, atHand, last⟩
      · -- a scan that waits for a page goes on with that page
        have more : pos.next < (s.file.pageCount e.volume).toNat := by
          by_cases waits : pos.waiting = true
          · exact passing.waiting waits
          · exact Nat.not_le.1 fun le => done ⟨le, by simpa using waits⟩
        rw [if_neg done]
        have steps := steps_take hosts passing atHand more
        cases took : (s.take pos).on (pos, e) with | mk outcome state =>
        obtain ⟨pos₁, e₁⟩ := state
        rw [took] at steps
        cases outcome with
        | ok _ =>
          obtain ⟨hosts₁, passing₁, next, walks, room⟩ := steps
          have asked := ih hosts₁ passing₁ (by rw [walks.pageCount, next]; omega)
          exact asked.before walks room (by omega)
        | error halt =>
          obtain ⟨hosts₁, passing₁, next, walks, hinders⟩ := steps
          refine ⟨hosts₁, passing₁, ?_, Nat.le_of_eq next.symm, ?_⟩
          · rw [next]
            exact walks
          · rw [next]
            exact hinders
    · rw [if_pos atHand]
      exact ⟨hosts, passing, .refl .., Nat.le_refl _, atHand⟩

/-- **A scan is asked for a row.** -/
theorem asked_hasNext (hosts : e.Hosts s.file) (passing : s.Passing given pos e) :
    s.Asked given pos e (s.hasNext.on (pos, e)) := by
  rw [hasNext, Turn.on_bind_ok (Turn.on_get _)]
  exact asked_fill hosts passing (by rw [Option.getD_none]; omega)

end HeapScan

end Tablespace
