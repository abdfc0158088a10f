import Mathlib.Data.List.Nodup
import Tablespace.Locks.Table
import Tablespace.Proofs.Assoc

/-!
# What a lock table says

A lock table keeps three maps, but what matters about it is the one map that
they stand for: how each transaction holds each page (`LockTable.mode?`). This
module says what every operation does to that map. An operation changes it
at one transaction and one page, or at one transaction
(`LockModes.set`, `LockModes.without`), and nowhere else.

A table is **sound** if a page that is held exclusive is held shared by
nobody, and the index lists the pages that are held and no others. Only a
sound table knows what to give up when a transaction gives up everything.
Every operation keeps a table sound.
-/

namespace Tablespace

/-- Whether a lock in one mode stands in the way of a request by another
transaction for the other mode. -/
def LockMode.conflicts : (held wanted : LockMode) → Bool
  | shared, shared => false
  | _, _ => true

@[simp]
theorem LockMode.conflicts_exclusive (held : LockMode) : held.conflicts .exclusive = true := by
  cases held <;> rfl

@[simp]
theorem LockMode.conflicts_shared_iff {held : LockMode} :
    held.conflicts .shared = true ↔ held = .exclusive := by
  cases held <;> simp [conflicts]

/-- The mode that a holder has after it was granted another one: the
stronger of the two. -/
def LockMode.join : (held : Option LockMode) → (wanted : LockMode) → LockMode
  | some .exclusive, _ => .exclusive
  | _, wanted => wanted

theorem LockMode.join_exclusive (held : Option LockMode) :
    LockMode.join held .exclusive = .exclusive := by
  cases held with
  | none => rfl
  | some mode => cases mode <;> rfl

theorem LockMode.join_shared {held : Option LockMode} (weak : held ≠ some .exclusive) :
    LockMode.join held .shared = .shared := by
  cases held with
  | none => rfl
  | some mode =>
    cases mode with
    | shared => rfl
    | exclusive => exact absurd rfl weak

/-- **How transactions hold pages.** -/
abbrev LockModes := TxnId → PageId → Option LockMode

namespace LockModes

/-- The map with another mode for one transaction and one page. -/
def set (m : LockModes) (t : TxnId) (page : PageId) (mode : Option LockMode) : LockModes :=
  fun u q => if u = t ∧ q = page then mode else m u q

/-- The map in which a transaction holds nothing. -/
def without (m : LockModes) (t : TxnId) : LockModes :=
  fun u q => if u = t then none else m u q

/-- **Whether nobody else stands in the way** of a request. -/
def Free (m : LockModes) (t : TxnId) (page : PageId) (wanted : LockMode) : Prop :=
  ∀ u held, u ≠ t → m u page = some held → held.conflicts wanted = false

end LockModes

namespace LockTable

/-- No page is held exclusive and shared, by whomever. -/
def Alone (l : LockTable) : Prop :=
  ∀ page t, l.exclusive.get? page = some t → l.shared.group page = []

/-- **The three maps agree.** -/
structure Sound (l : LockTable) : Prop where
  /-- A page that is held exclusive is held shared by nobody, nor by the one
  who holds it exclusive. -/
  alone : l.Alone
  /-- The index lists the pages that a transaction holds. -/
  indexed : ∀ t page, page ∈ l.held.group t ↔ l.mode? t page ≠ none
  /-- It lists none twice. -/
  distinct : ∀ t, (l.held.group t).Nodup

variable {l l' : LockTable} {t u : TxnId} {page q : PageId}

/-! ## Reading a mode off the maps -/

theorem mode?_eq_exclusive_iff :
    l.mode? t page = some .exclusive ↔ l.exclusive.get? page = some t := by
  unfold mode?
  split
  · rename_i mine
    simp [mine]
  · rename_i other
    split <;> simp [other]

theorem mode?_ne_none_iff :
    l.mode? t page ≠ none ↔ l.exclusive.get? page = some t ∨ t ∈ l.shared.group page := by
  unfold mode?
  split
  · rename_i mine
    simp [mine]
  · rename_i other
    split
    · rename_i there
      simp [there]
    · rename_i absent
      simp [other, absent]

theorem Sound.mode?_eq_shared_iff (sound : l.Sound) :
    l.mode? t page = some .shared ↔ t ∈ l.shared.group page := by
  unfold mode?
  split
  · rename_i mine
    simp [sound.alone page t mine]
  · split
    · rename_i there
      simp [there]
    · rename_i absent
      simp [absent]

theorem mode?_eq_shared (weak : l.exclusive.get? page ≠ some t)
    (shared : t ∈ l.shared.group page) : l.mode? t page = some .shared := by
  rw [mode?, if_neg weak, if_pos shared]

/-- A transaction with the same entries for a page in two tables holds it
alike. -/
theorem mode?_congr (exclusive : l'.exclusive.get? q = some u ↔ l.exclusive.get? q = some u)
    (shared : u ∈ l'.shared.group q ↔ u ∈ l.shared.group q) : l'.mode? u q = l.mode? u q := by
  unfold mode?
  simp only [exclusive, shared]

/-- Two tables that differ in how one transaction holds one page. -/
theorem mode?_eq_set {mode : Option LockMode} (here : l'.mode? t page = mode)
    (elsewhere : ∀ u q, ¬(u = t ∧ q = page) → l'.mode? u q = l.mode? u q) :
    l'.mode? = LockModes.set l.mode? t page mode := by
  funext u q
  unfold LockModes.set
  split
  · rename_i same
    rw [same.1, same.2, here]
  · rename_i other
    exact elsewhere u q other

/-- An exclusive holder of a page of a sound table is its only holder. -/
theorem Sound.mode?_eq_none_of_exclusive (sound : l.Sound)
    (held : l.mode? t page = some .exclusive) (other : u ≠ t) : l.mode? u page = none := by
  have mine := mode?_eq_exclusive_iff.1 held
  by_contra some
  rcases mode?_ne_none_iff.1 some with his | shared
  · rw [mine] at his
    exact other (Option.some.inj his).symm
  · rw [sound.alone page t mine] at shared
    exact List.not_mem_nil shared

theorem sound_empty : empty.Sound where
  alone _ _ h := by cases h
  indexed _ _ := by simp [empty, mode?]
  distinct _ := List.nodup_nil

/-! ## Giving up a lock -/

/-- Who holds a page exclusive after a lock was taken out. -/
theorem exclusive_remove :
    (l.remove t page).exclusive.get? q = some u
      ↔ l.exclusive.get? q = some u ∧ ¬(u = t ∧ q = page) := by
  unfold remove
  dsimp only
  split
  · rw [Assoc.get?_erase]
    grind
  · grind

/-- Who hold a page shared after a lock was taken out. -/
theorem shared_remove :
    u ∈ (l.remove t page).shared.group q ↔ u ∈ l.shared.group q ∧ ¬(u = t ∧ q = page) := by
  rw [and_comm (a := u = t)]
  exact Assoc.mem_group_remove

/-- Taking a lock out changes how one transaction holds one page. -/
theorem mode?_remove : (l.remove t page).mode? = LockModes.set l.mode? t page none := by
  refine mode?_eq_set ?_ fun u q other => mode?_congr ?_ ?_
  · by_contra held
    rcases mode?_ne_none_iff.1 held with exclusive | shared
    · exact (exclusive_remove.1 exclusive).2 ⟨rfl, rfl⟩
    · exact (shared_remove.1 shared).2 ⟨rfl, rfl⟩
  · rw [exclusive_remove, and_iff_left other]
  · rw [shared_remove, and_iff_left other]

theorem Alone.remove (alone : l.Alone) : (l.remove t page).Alone := by
  intro q u exclusive
  have before := alone q u (exclusive_remove.1 exclusive).1
  refine List.eq_nil_iff_forall_not_mem.2 fun v shared => ?_
  have there := (shared_remove.1 shared).1
  rw [before] at there
  exact List.not_mem_nil there

/-- **Giving up a lock** changes how one transaction holds one page. -/
@[simp]
theorem mode?_release : (l.release t page).mode? = LockModes.set l.mode? t page none :=
  mode?_remove

theorem Sound.release (sound : l.Sound) : (l.release t page).Sound where
  alone := sound.alone.remove
  indexed u q := by
    have listed : q ∈ (l.release t page).held.group u
        ↔ q ∈ l.held.group u ∧ ¬(u = t ∧ q = page) := Assoc.mem_group_remove
    rw [listed, sound.indexed, mode?_release, LockModes.set]
    grind
  distinct _ := Assoc.nodup_group_remove sound.distinct

/-! ## Giving up all locks -/

/-- What gives up one page after another takes away just these. -/
theorem mode?_foldl {give : LockTable → PageId → LockTable}
    (one : ∀ l page, (give l page).mode? = LockModes.set l.mode? t page none)
    (pages : List PageId) :
    (pages.foldl give l).mode? = fun u q => if u = t ∧ q ∈ pages then none else l.mode? u q := by
  induction pages generalizing l with
  | nil => funext u q; simp
  | cons page pages ih =>
    rw [List.foldl_cons, ih, one]
    funext u q
    rw [LockModes.set]
    grind

/-- The index is not looked at when locks are taken out. -/
theorem held_foldl_remove (pages : List PageId) :
    (pages.foldl (fun l page => l.remove t page) l).held = l.held := by
  induction pages generalizing l with
  | nil => rfl
  | cons page pages ih => exact ih

theorem Alone.foldl_remove (alone : l.Alone) (pages : List PageId) :
    (pages.foldl (fun l page => l.remove t page) l).Alone := by
  induction pages generalizing l with
  | nil => exact alone
  | cons page pages ih => exact ih alone.remove

/-- **Giving up all locks** changes how one transaction holds pages. The index
of a sound table knows them all. -/
theorem Sound.mode?_releaseAll (sound : l.Sound) :
    (l.releaseAll t).mode? = LockModes.without l.mode? t := by
  have freed : (l.releaseAll t).mode?
      = fun u q => if u = t ∧ q ∈ l.held.group t then none else l.mode? u q :=
    mode?_foldl (l := { l with held := l.held.erase t }) (fun _ _ => mode?_remove) (l.held.group t)
  rw [freed]
  funext u q
  unfold LockModes.without
  by_cases mine : u = t
  · -- what the index does not list is not held
    subst mine
    by_cases listed : q ∈ l.held.group u
    · rw [if_pos ⟨rfl, listed⟩, if_pos rfl]
    · rw [if_neg fun h => listed h.2, if_pos rfl]
      exact not_not.1 (mt (sound.indexed u q).2 listed)
  · rw [if_neg fun h => mine h.1, if_neg mine]

theorem Sound.releaseAll (sound : l.Sound) : (l.releaseAll t).Sound := by
  have held : (l.releaseAll t).held = l.held.erase t :=
    held_foldl_remove (l := { l with held := l.held.erase t }) (l.held.group t)
  have alone : ({ l with held := l.held.erase t } : LockTable).Alone := sound.alone
  refine ⟨alone.foldl_remove _, fun u q => ?_, fun u => ?_⟩
  · rw [held, Assoc.group_erase, sound.mode?_releaseAll, LockModes.without]
    split
    · simp
    · exact sound.indexed u q
  · rw [held, Assoc.group_erase]
    split
    · exact List.nodup_nil
    · exact sound.distinct u

/-! ## Downgrading -/

theorem downgrade_of_exclusive (held : l.mode? t page = some .exclusive) :
    l.downgrade t page
      = { l with exclusive := l.exclusive.erase page, shared := l.shared.add page t } :=
  if_pos (mode?_eq_exclusive_iff.1 held)

theorem downgrade_of_not_exclusive (weak : l.mode? t page ≠ some .exclusive) :
    l.downgrade t page = l :=
  if_neg (mt mode?_eq_exclusive_iff.2 weak)

/-- **Downgrading** changes how one transaction holds one page, and that only
if it holds it exclusive. -/
theorem mode?_downgrade :
    (l.downgrade t page).mode?
      = if l.mode? t page = some .exclusive then LockModes.set l.mode? t page (some .shared)
        else l.mode? := by
  split
  · rename_i held
    have mine := mode?_eq_exclusive_iff.1 held
    rw [downgrade_of_exclusive held]
    refine mode?_eq_set (mode?_eq_shared ?_ ?_) fun u q other => mode?_congr ?_ ?_
    · rw [Assoc.get?_erase, if_pos rfl]
      simp
    · exact Assoc.mem_group_add.2 (.inl ⟨rfl, rfl⟩)
    · rw [Assoc.get?_erase]
      grind
    · rw [Assoc.mem_group_add, or_iff_right fun same => other ⟨same.2, same.1⟩]
  · rename_i weak
    rw [downgrade_of_not_exclusive weak]

theorem Sound.downgrade (sound : l.Sound) : (l.downgrade t page).Sound := by
  by_cases held : l.mode? t page = some .exclusive
  · have modes : (l.downgrade t page).mode? = LockModes.set l.mode? t page (some .shared) := by
      rw [mode?_downgrade, if_pos held]
    rw [downgrade_of_exclusive held] at modes ⊢
    refine ⟨fun q u exclusive => ?_, fun u q => ?_, sound.distinct⟩
    · rw [Assoc.get?_erase] at exclusive
      split at exclusive
      · cases exclusive
      · rename_i other
        rw [Assoc.group_add, if_neg fun h => other h.1]
        exact sound.alone q u exclusive
    · -- the index stays, for a page that is held is held still
      refine (sound.indexed u q).trans ?_
      rw [modes, LockModes.set]
      split
      · rename_i here
        rw [here.1, here.2, held]
        simp
      · rfl
  · rwa [downgrade_of_not_exclusive held]

/-! ## Requests -/

/-- A note in the wait graph is no lock. -/
@[simp]
theorem mode?_waits (waits : WaitGraph) : ({ l with waits := waits } : LockTable).mode? = l.mode? :=
  rfl

theorem Sound.waits (sound : l.Sound) (waits : WaitGraph) :
    ({ l with waits := waits } : LockTable).Sound :=
  ⟨sound.alone, sound.indexed, sound.distinct⟩

/-- **Who blocks a request** is another one who holds the page in a mode that
conflicts. -/
theorem mem_blockers_iff {wanted : LockMode} :
    u ∈ l.blockers t page wanted
      ↔ u ≠ t ∧ ∃ held, l.mode? u page = some held ∧ held.conflicts wanted = true := by
  unfold blockers
  rw [List.mem_filter, List.mem_append, Option.mem_toList, decide_eq_true_iff, and_comm]
  refine and_congr_right fun _ => ?_
  cases wanted with
  | shared => simp [mode?_eq_exclusive_iff]
  | exclusive =>
    simp only [LockMode.conflicts_exclusive, and_true]
    rw [← mode?_ne_none_iff, Option.ne_none_iff_exists']

/-- **Nobody blocks a request** exactly if nobody stands in its way. -/
theorem blockers_eq_nil_iff {wanted : LockMode} :
    l.blockers t page wanted = [] ↔ LockModes.Free l.mode? t page wanted := by
  rw [List.eq_nil_iff_forall_not_mem]
  simp only [mem_blockers_iff, LockModes.Free]
  grind

/-- Nobody else holds a page that is free to be taken exclusive. -/
theorem mode?_eq_none_of_free (free : LockModes.Free l.mode? t page .exclusive) (other : u ≠ t) :
    l.mode? u page = none := by
  cases held : l.mode? u page with
  | none => rfl
  | some mode =>
    have clash := free u mode other held
    rw [LockMode.conflicts_exclusive] at clash
    cases clash

theorem mode?_grant_exclusive (free : LockModes.Free l.mode? t page .exclusive) :
    (l.grant t page .exclusive).mode? = LockModes.set l.mode? t page (some .exclusive) := by
  have exclusive (q : PageId) : (l.grant t page .exclusive).exclusive.get? q
      = if q = page then some t else l.exclusive.get? q := Assoc.get?_insert
  refine mode?_eq_set ?_ fun u q other => mode?_congr ?_ ?_
  · rw [mode?_eq_exclusive_iff, exclusive, if_pos rfl]
  · rw [exclusive]
    split
    · rename_i here
      have none := mode?_eq_none_of_free free fun same => other ⟨same, here⟩
      rw [← mode?_eq_exclusive_iff, here, none]
      grind
    · rfl
  · exact Assoc.mem_group_remove.trans (and_iff_left fun same => other ⟨same.2, same.1⟩)

theorem mode?_grant_shared (weak : l.mode? t page ≠ some .exclusive) :
    (l.grant t page .shared).mode? = LockModes.set l.mode? t page (some .shared) := by
  have weak' := mt mode?_eq_exclusive_iff.2 weak
  have exclusive : (l.grant t page .shared).exclusive = l.exclusive := by
    rw [grant, if_neg weak']
  have shared : (l.grant t page .shared).shared = l.shared.add page t := by
    rw [grant, if_neg weak']
  refine mode?_eq_set (mode?_eq_shared ?_ ?_) fun u q other => mode?_congr ?_ ?_
  · rwa [exclusive]
  · rw [shared]
    exact Assoc.mem_group_add.2 (.inl ⟨rfl, rfl⟩)
  · rw [exclusive]
  · rw [shared, Assoc.mem_group_add, or_iff_right fun same => other ⟨same.2, same.1⟩]

/-- **A grant** that nobody stands in the way of gives the stronger of the
mode held and the mode wanted. -/
theorem mode?_grant {wanted : LockMode} (free : LockModes.Free l.mode? t page wanted) :
    (l.grant t page wanted).mode?
      = LockModes.set l.mode? t page (some (LockMode.join (l.mode? t page) wanted)) := by
  cases wanted with
  | exclusive => rw [mode?_grant_exclusive free, LockMode.join_exclusive]
  | shared =>
    by_cases held : l.mode? t page = some .exclusive
    · refine mode?_eq_set ?_ fun u q _ => ?_ <;>
        rw [grant, if_pos (mode?_eq_exclusive_iff.1 held)]
      · exact held.trans (by rw [held, LockMode.join])
      · rfl
    · rw [mode?_grant_shared held, LockMode.join_shared held]

/-- The index has one more entry after a grant, in whatever mode. -/
theorem held_grant (wanted : LockMode) : (l.grant t page wanted).held = l.held.add t page := by
  unfold grant
  cases wanted with
  | exclusive => rfl
  | shared => dsimp only; split <;> rfl

theorem Alone.grant {wanted : LockMode} (alone : l.Alone)
    (free : LockModes.Free l.mode? t page wanted) : (l.grant t page wanted).Alone := by
  intro q u held
  cases wanted with
  | exclusive =>
    have exclusive : (l.grant t page .exclusive).exclusive.get? q
        = if q = page then some t else l.exclusive.get? q := Assoc.get?_insert
    rw [exclusive] at held
    refine List.eq_nil_iff_forall_not_mem.2 fun v shared => ?_
    obtain ⟨before, other⟩ := Assoc.mem_group_remove.1 shared
    split at held
    · -- whoever held the page shared stood in the way, or is the one it was granted to
      rename_i here
      have none := mode?_eq_none_of_free (u := v) free fun same => other ⟨here, same⟩
      exact mode?_ne_none_iff.2 (.inr (here ▸ before)) none
    · rw [alone q u held] at before
      exact List.not_mem_nil before
  | shared =>
    by_cases mine : l.exclusive.get? page = some t
    · rw [LockTable.grant, if_pos mine] at held ⊢
      exact alone q u held
    · rw [LockTable.grant, if_neg mine] at held ⊢
      -- an exclusive holder of the page would have stood in the way
      have before := alone q u held
      refine (Assoc.group_add).trans ?_
      rw [if_neg, before]
      rintro ⟨rfl, -⟩
      have clash := free u .exclusive (fun same => mine (same ▸ held))
        (mode?_eq_exclusive_iff.2 held)
      cases clash

theorem Sound.grant (sound : l.Sound) {wanted : LockMode}
    (free : LockModes.Free l.mode? t page wanted) : (l.grant t page wanted).Sound where
  alone := sound.alone.grant free
  indexed u q := by
    rw [held_grant, Assoc.mem_group_add, sound.indexed, mode?_grant free, LockModes.set]
    grind
  distinct u := by
    rw [held_grant]
    exact Assoc.nodup_group_add sound.distinct

/-- **A request is granted** exactly if nobody stands in its way. -/
theorem request_granted_iff {wanted : LockMode} :
    (l.request t page wanted).1 = .granted ↔ LockModes.Free l.mode? t page wanted := by
  rw [← blockers_eq_nil_iff]
  unfold request
  cases l.blockers t page wanted with
  | nil => simp
  | cons u others =>
    dsimp only
    split <;> simp

/-- A request that is granted takes the lock. -/
theorem request_of_granted {wanted : LockMode} (h : (l.request t page wanted).1 = .granted) :
    (l.request t page wanted).2 = l.grant t page wanted := by
  unfold request at h ⊢
  cases blocked : l.blockers t page wanted with
  | nil => rfl
  | cons u others =>
    rw [blocked] at h
    dsimp only at h
    split at h <;> cases h

theorem mode?_request_of_granted {wanted : LockMode}
    (h : (l.request t page wanted).1 = .granted) :
    (l.request t page wanted).2.mode?
      = LockModes.set l.mode? t page (some (LockMode.join (l.mode? t page) wanted)) := by
  rw [request_of_granted h, mode?_grant (request_granted_iff.1 h)]

/-- A request that is not granted takes no lock. -/
theorem mode?_request_of_not_granted {wanted : LockMode}
    (h : (l.request t page wanted).1 ≠ .granted) :
    (l.request t page wanted).2.mode? = l.mode? := by
  unfold request at h ⊢
  cases blocked : l.blockers t page wanted with
  | nil => rw [blocked] at h; exact absurd rfl h
  | cons u others => dsimp only; split <;> rfl

theorem Sound.request (sound : l.Sound) {wanted : LockMode} :
    (l.request t page wanted).2.Sound := by
  by_cases h : (l.request t page wanted).1 = .granted
  · rw [request_of_granted h]
    exact sound.grant (request_granted_iff.1 h)
  · unfold LockTable.request at h ⊢
    cases blocked : l.blockers t page wanted with
    | nil => rw [blocked] at h; exact absurd rfl h
    | cons u others => dsimp only; split <;> exact sound.waits _

end LockTable

end Tablespace
