import Mathlib.Data.List.Pairwise
import Tablespace.Proofs.Locks.Modes

/-!
# A lock table is a map of modes

Whatever is done to a lock table, in whatever order and by whomever, it
stays a faithful account of a map that says how each transaction holds each
page. The map has its own, simpler account of the four actions
(`LockModes.act`): a request that nobody stands in the way of raises a mode
to the stronger of two, a release takes one away, a downgrade lowers one, and
giving up everything takes away all modes of one transaction.

`LockTable.run_refines` says that the table and the map never part: its list
of a transaction's pages, its answers to requests, and what it looks like
after any further action are those of the map.
-/

namespace Tablespace

/-! ## The order of pages -/

namespace PageId

theorem le_iff (p q : PageId) :
    p.le q = true ↔ p.table.number < q.table.number
      ∨ p.table.number = q.table.number ∧ p.number ≤ q.number := by
  rw [le, order, Ordering.isLE_then_iff_and, Nat.isLE_compare, Nat.compare_eq_lt, Nat.isLE_compare,
    UInt32.lt_iff_toNat_lt, UInt32.le_iff_toNat_le, ← UInt32.toNat_inj]
  omega

theorem le_trans {p q r : PageId} (pq : p.le q = true) (qr : q.le r = true) : p.le r = true := by
  rw [le_iff] at *
  grind

theorem le_total (p q : PageId) : (p.le q || q.le p) = true := by
  rw [Bool.or_eq_true, le_iff, le_iff]
  grind

/-- **`p` stands before `q`.** -/
def Before (p q : PageId) : Prop :=
  p.le q = true ∧ p ≠ q

end PageId

/-! ## Actions -/

/-- **What can be done to the locks.** -/
inductive LockAction where
  /-- One turn of a request. -/
  | request (txn : TxnId) (page : PageId) (wanted : LockMode)
  | release (txn : TxnId) (page : PageId)
  | downgrade (txn : TxnId) (page : PageId)
  | releaseAll (txn : TxnId)
  deriving DecidableEq

/-- The table after an action. -/
def LockTable.act (l : LockTable) : LockAction → LockTable
  | .request t page wanted => (l.request t page wanted).2
  | .release t page => l.release t page
  | .downgrade t page => l.downgrade t page
  | .releaseAll t => l.releaseAll t

/-- The table after a series of actions, from the empty one. -/
def LockTable.run (actions : List LockAction) : LockTable :=
  actions.foldl act empty

open Classical in
/-- **The map after an action.** -/
noncomputable def LockModes.act (m : LockModes) : LockAction → LockModes
  | .request t page wanted =>
    if m.Free t page wanted then m.set t page (some (LockMode.join (m t page) wanted)) else m
  | .release t page => m.set t page none
  | .downgrade t page =>
    if m t page = some .exclusive then m.set t page (some .shared) else m
  | .releaseAll t => m.without t

/-- The map after a series of actions, from the one in which nobody holds
anything. -/
noncomputable def LockModes.run (actions : List LockAction) : LockModes :=
  actions.foldl act fun _ _ => none

/-! ## A table and its map -/

/-- **A table that is a faithful account of a map of modes.** -/
structure LockTable.Refines (l : LockTable) (m : LockModes) : Prop where
  /-- The modes that the table reports are those of the map. -/
  modes : l.mode? = m
  /-- The exclusive entries are those that the map has, and no others. -/
  exclusive : ∀ t page, l.exclusive.get? page = some t ↔ m t page = some .exclusive
  /-- So are the shared ones: none is left behind by an upgrade. -/
  shared : ∀ t page, t ∈ l.shared.group page ↔ m t page = some .shared
  /-- An exclusive holder is alone. -/
  alone : ∀ t u page, m t page = some .exclusive → u ≠ t → m u page = none
  /-- The pages listed for a transaction are those it holds. -/
  pages : ∀ t page, page ∈ l.pagesOf t ↔ m t page ≠ none
  /-- They are listed in order, and none is listed twice. -/
  ordered : ∀ t, (l.pagesOf t).Pairwise PageId.Before
  /-- A request is granted exactly if nobody stands in its way. -/
  granted : ∀ t page wanted, (l.request t page wanted).1 = .granted ↔ m.Free t page wanted
  /-- Every action does to the modes of the table what it does to the map. -/
  acts : ∀ action, (l.act action).mode? = m.act action
  /-- Giving up everything is giving up, in any order, what is listed. -/
  oneByOne : ∀ (t : TxnId) (pages : List PageId), pages.Perm (l.pagesOf t) →
    (pages.foldl (fun l page => l.release t page) l).mode? = (l.releaseAll t).mode?

namespace LockTable

variable {l : LockTable} {t : TxnId} {page : PageId}

/-- The pages listed for a transaction are those it holds. -/
theorem Sound.mem_pagesOf_iff (sound : l.Sound) : page ∈ l.pagesOf t ↔ l.mode? t page ≠ none := by
  rw [pagesOf, List.mem_mergeSort, sound.indexed]

/-- The list of a transaction's pages is in order and without
repetition. -/
theorem Sound.pairwise_pagesOf (sound : l.Sound) : (l.pagesOf t).Pairwise PageId.Before := by
  have sorted : (l.pagesOf t).Pairwise fun p q => p.le q = true :=
    @List.pairwise_mergeSort _ PageId.le (fun _ _ _ => PageId.le_trans) PageId.le_total _
  have distinct : (l.pagesOf t).Nodup :=
    (List.mergeSort_perm _ _).nodup_iff.2 (sound.distinct t)
  exact sorted.and distinct

theorem Sound.act (sound : l.Sound) (action : LockAction) : (l.act action).Sound := by
  cases action with
  | request t page wanted => exact sound.request
  | release t page => exact sound.release
  | downgrade t page => exact sound.downgrade
  | releaseAll t => exact sound.releaseAll

/-- **Every action does to the modes what it does to the map.** -/
theorem Sound.mode?_act (sound : l.Sound) (action : LockAction) :
    (l.act action).mode? = LockModes.act l.mode? action := by
  cases action with
  | request t page wanted =>
    rw [LockTable.act, LockModes.act]
    split
    · rename_i free
      exact mode?_request_of_granted (request_granted_iff.2 free)
    · rename_i blocked
      exact mode?_request_of_not_granted fun h => blocked (request_granted_iff.1 h)
  | release t page => exact mode?_release
  | downgrade t page => exact mode?_downgrade
  | releaseAll t => exact sound.mode?_releaseAll

/-- A sound table is a faithful account of the modes that it reports. -/
theorem Sound.refines (sound : l.Sound) : l.Refines l.mode? where
  modes := rfl
  exclusive _ _ := mode?_eq_exclusive_iff.symm
  shared _ _ := sound.mode?_eq_shared_iff.symm
  alone _ _ _ held other := sound.mode?_eq_none_of_exclusive held other
  pages _ _ := sound.mem_pagesOf_iff
  ordered _ := sound.pairwise_pagesOf
  granted _ _ _ := request_granted_iff
  acts := sound.mode?_act
  oneByOne t pages perm := by
    -- the pages listed are all that the transaction holds, so the order does not matter
    rw [mode?_foldl fun _ _ => mode?_release, sound.mode?_releaseAll]
    funext u q
    unfold LockModes.without
    by_cases same : u = t
    · subst same
      by_cases held : l.mode? u q = none
      · simp [held]
      · rw [if_pos ⟨rfl, perm.mem_iff.2 (sound.mem_pagesOf_iff.2 held)⟩, if_pos rfl]
    · rw [if_neg (fun h => same h.1), if_neg same]

/-- Every series of actions keeps the table sound. -/
theorem sound_run (actions : List LockAction) : (run actions).Sound := by
  have go (l : LockTable) (sound : l.Sound) : (actions.foldl LockTable.act l).Sound := by
    induction actions generalizing l with
    | nil => exact sound
    | cons action actions ih => exact ih _ (sound.act action)
  exact go empty sound_empty

/-- The modes of the table after a series of actions are the map after
it. -/
theorem mode?_run (actions : List LockAction) : (run actions).mode? = LockModes.run actions := by
  have go (l : LockTable) (sound : l.Sound) :
      (actions.foldl LockTable.act l).mode? = actions.foldl LockModes.act l.mode? := by
    induction actions generalizing l with
    | nil => rfl
    | cons action actions ih =>
      rw [List.foldl_cons, List.foldl_cons, ih _ (sound.act action), sound.mode?_act]
  exact go empty sound_empty

/-- **The lock table refines a map of modes.** After any series of requests,
releases, downgrades and releases of everything, by any transactions and in
any order, the table is a faithful account of the map that the same actions
lead to. -/
theorem run_refines (actions : List LockAction) : (run actions).Refines (LockModes.run actions) :=
  mode?_run actions ▸ (sound_run actions).refines

end LockTable

end Tablespace
