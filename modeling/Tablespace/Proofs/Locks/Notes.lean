import Tablespace.Locks.Clients
import Tablespace.Proofs.Locks.Refusal

/-!
# Notes of waiting

A transaction **waits for** another one if its request is held up by a lock that
the other one holds (`WaitsFor`). This is about the locks as they are, and not
about the notes in the wait graph, which a request makes when it is asked and
which are out of date as soon as somebody else takes or gives up a lock.

Notes can be **exact** (`LockTable.Settled`); then a request is refused exactly if
it would close a cycle of waiting. While blocked requests are asked again the
notes are only **good enough** (`LockTable.Orderly`): they may tell of holders who
are gone, and may not yet tell of one who was granted a lock meanwhile. But such
a one is not blocked and waits for nobody, so that no request that is asked
again can find a cycle (`LockTable.Orderly.cycleFrom_eq_false`).
-/

namespace Tablespace

open Relation

/-- Who takes an action. -/
def LockAction.txn : LockAction → TxnId
  | .request t _ _ | .release t _ | .downgrade t _ | .releaseAll t => t

/-- **Who holds a request up**: another one who holds the page in a mode that
conflicts with the mode wanted. -/
def LockRequest.HeldUpBy (r : LockRequest) (m : LockModes) (u : TxnId) : Prop :=
  u ≠ r.txn ∧ ∃ held, m u r.page = some held ∧ held.conflicts r.mode = true

/-- **A transaction waits for another one**, which holds its request up. -/
def WaitsFor (m : LockModes) (requests : List LockRequest) (t u : TxnId) : Prop :=
  ∃ r ∈ requests, r.txn = t ∧ r.HeldUpBy m u

variable {l : LockTable} {r : LockRequest} {m m' : LockModes} {t u : TxnId} {page : PageId}

/-! ## Who holds a request up -/

/-- Those who hold a request up are those whom the table finds in its way. -/
theorem LockRequest.heldUpBy_iff :
    r.HeldUpBy l.mode? u ↔ u ∈ l.blockers r.txn r.page r.mode :=
  LockTable.mem_blockers_iff.symm

/-- A request is held up exactly if there is somebody in its way. -/
theorem LockRequest.exists_heldUpBy_iff :
    (∃ u, r.HeldUpBy l.mode? u) ↔ l.blockers r.txn r.page r.mode ≠ [] := by
  simp only [heldUpBy_iff, ← List.isEmpty_eq_false_iff, List.isEmpty_eq_false_iff_exists_mem]

/-- Who holds a page in another mode or not at all, and no stronger than
before, holds up no more requests. -/
theorem LockRequest.HeldUpBy.of_weaker (h : r.HeldUpBy m' u)
    (weaker : ∀ u q held, m' u q = some held → m u q = some held ∨ m u q = some .exclusive) :
    r.HeldUpBy m u := by
  obtain ⟨other, held, here, conflict⟩ := h
  rcases weaker u r.page held here with same | exclusive
  · exact ⟨other, held, same, conflict⟩
  · exact ⟨other, .exclusive, exclusive, rfl⟩

/-- A grant to one transaction lets nobody else hold up more. -/
theorem LockRequest.HeldUpBy.of_set {mode : Option LockMode} (h : r.HeldUpBy (m.set t page mode) u)
    (other : u ≠ t) : r.HeldUpBy m u := by
  unfold HeldUpBy LockModes.set at *
  simpa only [other, false_and, if_false] using h

/-- **Giving locks up** leaves nobody with a stronger lock. -/
theorem LockModes.act_weaker {action : LockAction} {q : PageId} {held : LockMode}
    (gives : ∀ t page wanted, action ≠ .request t page wanted)
    (h : m.act action u q = some held) :
    m u q = some held ∨ m u q = some .exclusive := by
  cases action with
  | request t page wanted => exact absurd rfl (gives t page wanted)
  | release t page =>
    simp only [act, set] at h
    split at h
    · cases h
    · exact .inl h
  | downgrade t page =>
    simp only [act] at h
    split at h
    · rename_i mine
      simp only [set] at h
      split at h
      · rename_i here
        exact .inr (here.1 ▸ here.2 ▸ mine)
      · exact .inl h
    · exact .inl h
  | releaseAll t =>
    simp only [act, without] at h
    split at h
    · cases h
    · exact .inl h

/-- **What a request comes to**: it is granted if nobody is in its way, it is
refused if its edges close a cycle, and else its edges are noted. -/
theorem LockRequest.ask_cases (r : LockRequest) (l : LockTable) :
    (l.blockers r.txn r.page r.mode = []
      ∧ r.ask l = (.answered (.ok ()), l.grant r.txn r.page r.mode))
    ∨ (l.blockers r.txn r.page r.mode ≠ []
      ∧ (l.waits.put r.txn (l.blockers r.txn r.page r.mode)).cycleFrom r.txn = true
      ∧ ∃ holder, r.ask l = (.answered (.error (.deadlock r.txn holder)),
        { l with waits := l.waits.drop r.txn }))
    ∨ (l.blockers r.txn r.page r.mode ≠ []
      ∧ (l.waits.put r.txn (l.blockers r.txn r.page r.mode)).cycleFrom r.txn = false
      ∧ r.ask l = (.blocked false r,
        { l with waits := l.waits.put r.txn (l.blockers r.txn r.page r.mode) })) := by
  unfold ask
  rw [LockTable.on_acquire]
  rcases l.request_cases r.txn r.page r.mode with
    ⟨free, h⟩ | ⟨held, found, holder, h⟩ | ⟨held, missed, h⟩ <;> rw [h]
  · exact .inl ⟨free, rfl⟩
  · exact .inr (.inl ⟨held, found, holder, rfl⟩)
  · exact .inr (.inr ⟨held, missed, rfl⟩)

/-! ## Notes that are good enough, and notes that are exact -/

namespace LockTable

variable {requests rest : List LockRequest} {wanted : LockMode}

/-- **Locks and blocked requests with notes that are good enough**: no request
that is asked again can find a cycle. -/
structure Orderly (l : LockTable) (requests : List LockRequest) : Prop where
  /-- The locks are sound. -/
  sound : l.Sound
  /-- A transaction has one blocked request at most. -/
  single : (requests.map (·.txn)).Nodup
  /-- Only blocked transactions are noted as waiting. -/
  idle : ∀ t, t ∉ requests.map (·.txn) → l.waits.successors t = []
  /-- Who holds a request up without being noted is not blocked itself. -/
  noted : ∀ r ∈ requests, ∀ u, r.HeldUpBy l.mode? u →
    l.waits.Edge r.txn u ∨ u ∉ requests.map (·.txn)
  /-- Nobody waits for himself, by the notes. -/
  acyclic : l.waits.Acyclic

/-- **Exact notes of a blocked request**: it is noted as waiting for those who
hold it up, and there are such. -/
structure Exact (l : LockTable) (r : LockRequest) : Prop where
  /-- The notes are those who hold the request up. -/
  edges : ∀ u, l.waits.Edge r.txn u ↔ r.HeldUpBy l.mode? u
  /-- Somebody does. -/
  heldUp : ∃ u, r.HeldUpBy l.mode? u

/-- **Locks and blocked requests with exact notes.** -/
structure Settled (l : LockTable) (requests : List LockRequest) : Prop where
  /-- The locks are sound. -/
  sound : l.Sound
  /-- A transaction has one blocked request at most. -/
  single : (requests.map (·.txn)).Nodup
  /-- Only blocked transactions are noted as waiting. -/
  idle : ∀ t, t ∉ requests.map (·.txn) → l.waits.successors t = []
  /-- The notes of every blocked request are exact. -/
  exact : ∀ r ∈ requests, l.Exact r
  /-- Nobody waits for himself. -/
  acyclic : l.waits.Acyclic

theorem settled_empty : empty.Settled [] where
  sound := sound_empty
  single := List.nodup_nil
  idle _ _ := rfl
  exact _ h := absurd h List.not_mem_nil
  acyclic := WaitGraph.acyclic_empty

/-- Exact notes are good enough. -/
theorem Settled.orderly (h : l.Settled requests) : l.Orderly requests :=
  ⟨h.sound, h.single, h.idle, fun r hr u up => .inl (((h.exact r hr).edges u).2 up), h.acyclic⟩

/-- The order of the requests does not matter. -/
theorem Orderly.perm (h : l.Orderly requests) (perm : requests.Perm rest) : l.Orderly rest where
  sound := h.sound
  single := (perm.map _).nodup_iff.1 h.single
  idle t ht := h.idle t (by rwa [(perm.map _).mem_iff])
  noted r hr u up := by
    rw [← (perm.map _).mem_iff]
    exact h.noted r (perm.mem_iff.2 hr) u up
  acyclic := h.acyclic

theorem Settled.perm (h : l.Settled requests) (perm : requests.Perm rest) : l.Settled rest where
  sound := h.sound
  single := (perm.map _).nodup_iff.1 h.single
  idle t ht := h.idle t (by rwa [(perm.map _).mem_iff])
  exact r hr := h.exact r (perm.mem_iff.2 hr)
  acyclic := h.acyclic

/-- **A transaction that is granted a lock is not blocked**, and may hold up
others that are not noted as waiting for it. -/
theorem Orderly.grant (h : l.Orderly requests) (sub : rest.Sublist requests)
    (idle : t ∉ rest.map (·.txn)) (own : ∀ r ∈ requests, r.txn = t ∨ r ∈ rest)
    (free : LockModes.Free l.mode? t page wanted) : (l.grant t page wanted).Orderly rest := by
  have back (u : TxnId) (other : u ≠ t) (h : u ∉ rest.map (·.txn)) :
      u ∉ requests.map (·.txn) := by
    intro there
    obtain ⟨r, hr, rfl⟩ := List.mem_map.1 there
    exact h (List.mem_map_of_mem ((own r hr).resolve_left other))
  refine ⟨h.sound.grant free, h.single.sublist (sub.map _), fun u hu => ?_, fun r hr u up => ?_,
    waits_grant ▸ h.acyclic.drop⟩
  · rw [waits_grant, WaitGraph.successors_drop]
    split
    · rfl
    · rename_i other
      exact h.idle u (back u other hu)
  · by_cases mine : u = t
    · exact .inr (mine ▸ idle)
    · have asks : r.txn ≠ t := fun same => idle (same ▸ List.mem_map_of_mem hr)
      rw [mode?_grant free] at up
      rw [waits_grant, WaitGraph.Edge, WaitGraph.successors_drop, if_neg asks]
      exact (h.noted r (sub.mem hr) u (up.of_set mine)).imp_right
        fun absent there => absent ((sub.map _).mem there)

/-- **A request that is asked again finds no cycle**: those that newly hold it
up wait for nobody. -/
theorem Orderly.cycleFrom_eq_false (h : l.Orderly (r :: rest)) :
    (l.waits.put r.txn (l.blockers r.txn r.page r.mode)).cycleFrom r.txn = false := by
  rw [← Bool.not_eq_true, h.acyclic.cycleFrom_put_iff]
  rintro ⟨u, up, path⟩
  rw [← LockRequest.heldUpBy_iff] at up
  rcases h.noted r List.mem_cons_self u up with edge | idle
  · -- the way back is made of old edges, and so was the way there
    have back := WaitGraph.reflTransGen_to (fun _ _ => WaitGraph.edge_of_put) path
    exact h.acyclic r.txn (.head' edge back)
  · rcases path.cases_head with same | ⟨v, edge, -⟩
    · exact up.1 same
    · have none := WaitGraph.edge_of_put up.1 edge
      rw [WaitGraph.Edge, h.idle u idle] at none
      exact List.not_mem_nil none

/-- **A request that is asked again** is granted or has to wait on. -/
theorem Orderly.ask (h : l.Orderly (r :: rest)) :
    (l.blockers r.txn r.page r.mode = []
      ∧ r.ask l = (.answered (.ok ()), l.grant r.txn r.page r.mode))
    ∨ (l.blockers r.txn r.page r.mode ≠ []
      ∧ r.ask l = (.blocked false r,
        { l with waits := l.waits.put r.txn (l.blockers r.txn r.page r.mode) })) := by
  rcases r.ask_cases l with granted | ⟨-, found, -⟩ | ⟨up, -, waits⟩
  · exact .inl granted
  · rw [h.cycleFrom_eq_false] at found
    cases found
  · exact .inr ⟨up, waits⟩

/-- A request that is asked again in vain brings its notes up to date. -/
theorem Orderly.put (h : l.Orderly (r :: rest)) :
    { l with waits := l.waits.put r.txn (l.blockers r.txn r.page r.mode) }.Orderly
      (r :: rest) where
  sound := h.sound.waits _
  single := h.single
  idle u hu := by
    have other : u ≠ r.txn := fun same => hu (same ▸ List.mem_cons_self)
    exact (WaitGraph.successors_put.trans (if_neg other)).trans (h.idle u hu)
  noted s hs u up := by
    by_cases same : s.txn = r.txn
    · rcases List.mem_cons.1 hs with rfl | there
      · exact .inl (WaitGraph.edge_put_iff.2 (LockRequest.heldUpBy_iff.1 up))
      · exact absurd (List.mem_map.2 ⟨s, there, same⟩) (List.nodup_cons.1 h.single).1
    · rw [WaitGraph.Edge, WaitGraph.successors_put, if_neg same]
      exact h.noted s hs u up
  acyclic := h.acyclic.put h.cycleFrom_eq_false

/-- A request that has to wait notes who holds it up. -/
theorem exact_put (up : l.blockers r.txn r.page r.mode ≠ []) :
    { l with waits := l.waits.put r.txn (l.blockers r.txn r.page r.mode) }.Exact r :=
  ⟨fun _ => WaitGraph.edge_put_iff.trans LockRequest.heldUpBy_iff.symm,
    LockRequest.exists_heldUpBy_iff.2 up⟩

/-- The notes of others stay as they are. -/
theorem Exact.put {others : List TxnId} (h : l.Exact r) (other : r.txn ≠ t) :
    { l with waits := l.waits.put t others }.Exact r := by
  refine ⟨fun u => ?_, h.heldUp⟩
  rw [WaitGraph.Edge, WaitGraph.successors_put, if_neg other]
  exact h.edges u

theorem Exact.drop (h : l.Exact r) (other : r.txn ≠ t) :
    { l with waits := l.waits.drop t }.Exact r := by
  refine ⟨fun u => ?_, h.heldUp⟩
  rw [WaitGraph.Edge, WaitGraph.successors_drop, if_neg other]
  exact h.edges u

/-- **A new request that has to wait** keeps the notes exact. -/
theorem Settled.put (h : l.Settled requests) (idle : r.txn ∉ requests.map (·.txn))
    (up : l.blockers r.txn r.page r.mode ≠ [])
    (found : (l.waits.put r.txn (l.blockers r.txn r.page r.mode)).cycleFrom r.txn = false) :
    { l with waits := l.waits.put r.txn (l.blockers r.txn r.page r.mode) }.Settled
      (r :: requests) where
  sound := h.sound.waits _
  single := List.nodup_cons.2 ⟨idle, h.single⟩
  idle u hu := by
    obtain ⟨other, absent⟩ := not_or.1 (mt List.mem_cons.2 hu)
    exact (WaitGraph.successors_put.trans (if_neg other)).trans (h.idle u absent)
  exact s hs := by
    rcases List.mem_cons.1 hs with rfl | there
    · exact exact_put up
    · exact (h.exact s there).put fun same => idle (same ▸ List.mem_map_of_mem there)
  acyclic := h.acyclic.put found

/-- A transaction that is not noted as waiting has no notes to lose. -/
theorem Settled.drop (h : l.Settled requests) (idle : t ∉ requests.map (·.txn)) :
    { l with waits := l.waits.drop t }.Settled requests where
  sound := h.sound.waits _
  single := h.single
  idle u hu := by rw [WaitGraph.successors_drop, h.idle u hu, ite_self]
  exact r hr := (h.exact r hr).drop fun same => idle (same ▸ List.mem_map_of_mem hr)
  acyclic := h.acyclic.drop

/-- **Locks that are given up** leave notes behind of those who held them. -/
theorem Orderly.giveUp {action : LockAction} (h : l.Orderly requests)
    (gives : ∀ t page wanted, action ≠ .request t page wanted)
    (idle : action.txn ∉ requests.map (·.txn)) : (l.act action).Orderly requests := by
  have notes (u : TxnId) : (l.act action).waits.successors u = l.waits.successors u := by
    cases action with
    | request t page wanted => exact absurd rfl (gives t page wanted)
    | release t page => rfl
    | downgrade t page => rw [act, waits_downgrade]
    | releaseAll t =>
      rw [act, waits_releaseAll, WaitGraph.successors_drop]
      split
      · rename_i mine
        rw [mine, h.idle t idle]
      · rfl
  refine ⟨h.sound.act action, h.single, fun u hu => (notes u).trans (h.idle u hu),
    fun r hr u up => ?_, acyclic_act h.acyclic action⟩
  rw [h.sound.mode?_act] at up
  rw [WaitGraph.Edge, notes]
  exact h.noted r hr u (up.of_weaker fun _ _ _ => LockModes.act_weaker gives)

/-! ## Who waits for whom -/

/-- Who waits for whom with one more request. -/
theorem waitsFor_cons :
    WaitsFor m (r :: requests) t u ↔ (r.txn = t ∧ r.HeldUpBy m u) ∨ WaitsFor m requests t u := by
  simp [WaitsFor]

/-- A transaction without a request waits for nobody. -/
theorem not_waitsFor (idle : t ∉ requests.map (·.txn)) : ¬WaitsFor m requests t u :=
  fun ⟨_, hr, asks, _⟩ => idle (asks ▸ List.mem_map_of_mem hr)

/-- **Exact notes are who waits for whom.** -/
theorem Settled.edge_iff (h : l.Settled requests) :
    l.waits.Edge t u ↔ WaitsFor l.mode? requests t u := by
  constructor
  · intro edge
    by_cases busy : t ∈ requests.map (·.txn)
    · obtain ⟨r, hr, rfl⟩ := List.mem_map.1 busy
      exact ⟨r, hr, rfl, ((h.exact r hr).edges u).1 edge⟩
    · rw [WaitGraph.Edge, h.idle t busy] at edge
      cases edge
  · rintro ⟨r, hr, rfl, up⟩
    exact ((h.exact r hr).edges u).2 up

/-- **The notes that a new request looks at** are who waits for whom with
it. -/
theorem Settled.edge_put_iff (h : l.Settled requests) (idle : r.txn ∉ requests.map (·.txn)) :
    (l.waits.put r.txn (l.blockers r.txn r.page r.mode)).Edge t u
      ↔ WaitsFor l.mode? (r :: requests) t u := by
  rw [waitsFor_cons]
  by_cases mine : t = r.txn
  · rw [mine, WaitGraph.edge_put_iff, ← LockRequest.heldUpBy_iff, or_iff_left (not_waitsFor idle),
      and_iff_right rfl]
  · rw [or_iff_right fun h => mine h.1.symm, ← h.edge_iff, WaitGraph.Edge,
      WaitGraph.successors_put, if_neg mine, WaitGraph.Edge]

end LockTable

end Tablespace
