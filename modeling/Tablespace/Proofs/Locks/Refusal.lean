import Tablespace.Proofs.Locks.Refinement
import Tablespace.Proofs.Locks.WaitGraph

/-!
# When a request is refused

A request that others stand in the way of puts its edges into the wait graph,
and is refused if it finds a cycle there. The notes of other transactions may
be out of date by then, and nothing is assumed about when they are renewed.
Still the graph is acyclic at all times: an edge is only ever put by a request
that found no cycle with it, and whatever else happens takes edges away.

So the cycle that a request finds is its own. It is refused exactly if its
transaction can be reached from one of those who stand in its way
(`LockTable.Vigilant`), and never because others wait in a circle.
-/

namespace Tablespace.LockTable

open Relation

variable {l : LockTable} {t : TxnId} {page : PageId} {wanted : LockMode} {holder : TxnId}

/-- **What a request comes to**: it is granted if nobody stands in the way, it
is refused if its edges close a cycle, and else its edges are noted. -/
theorem request_cases (l : LockTable) (t : TxnId) (page : PageId) (wanted : LockMode) :
    (l.blockers t page wanted = [] ∧ l.request t page wanted = (.granted, l.grant t page wanted))
    ∨ (l.blockers t page wanted ≠ []
      ∧ (l.waits.put t (l.blockers t page wanted)).cycleFrom t = true
      ∧ ∃ holder, l.request t page wanted
        = (.deadlock holder, { l with waits := l.waits.drop t }))
    ∨ (l.blockers t page wanted ≠ []
      ∧ (l.waits.put t (l.blockers t page wanted)).cycleFrom t = false
      ∧ l.request t page wanted
        = (.blocked, { l with waits := l.waits.put t (l.blockers t page wanted) })) := by
  unfold request
  cases l.blockers t page wanted with
  | nil => exact .inl ⟨rfl, rfl⟩
  | cons u others =>
    cases found : (l.waits.put t (u :: others)).cycleFrom t with
    | true => exact .inr (.inl ⟨by simp, rfl, lowest u others, by simp [found]⟩)
    | false => exact .inr (.inr ⟨by simp, rfl, by simp [found]⟩)

/-! ## The notes after each action -/

theorem waits_grant : (l.grant t page wanted).waits = l.waits.drop t := by
  unfold grant
  cases wanted with
  | exclusive => rfl
  | shared => dsimp only; split <;> rfl

/-- Taking locks out leaves the notes as they are. -/
theorem waits_foldl_remove (pages : List PageId) :
    (pages.foldl (fun l page => l.remove t page) l).waits = l.waits := by
  induction pages generalizing l with
  | nil => rfl
  | cons page pages ih => exact ih

theorem waits_releaseAll : (l.releaseAll t).waits = l.waits.drop t :=
  congrArg (·.drop t) (waits_foldl_remove (l := { l with held := l.held.erase t }) _)

theorem waits_downgrade : (l.downgrade t page).waits = l.waits := by
  unfold downgrade
  split <;> rfl

/-- **Every action keeps the wait graph acyclic.** -/
theorem acyclic_act (acyclic : l.waits.Acyclic) (action : LockAction) :
    (l.act action).waits.Acyclic := by
  cases action with
  | request t page wanted =>
    rw [act]
    rcases request_cases l t page wanted with ⟨-, h⟩ | ⟨-, -, holder, h⟩ | ⟨-, none, h⟩ <;> rw [h]
    · exact waits_grant ▸ acyclic.drop
    · exact acyclic.drop
    · exact acyclic.put none
  | release t page => exact acyclic
  | downgrade t page => exact waits_downgrade.symm ▸ acyclic
  | releaseAll t => exact waits_releaseAll.symm ▸ acyclic.drop

/-- **The wait graph is acyclic at all times.** -/
theorem acyclic_run (actions : List LockAction) : (run actions).waits.Acyclic := by
  have go (l : LockTable) (acyclic : l.waits.Acyclic) :
      (actions.foldl LockTable.act l).waits.Acyclic := by
    induction actions generalizing l with
    | nil => exact acyclic
    | cons action actions ih => exact ih _ (acyclic_act acyclic action)
  exact go empty WaitGraph.acyclic_empty

/-! ## Refusals -/

/-- **A table that refuses a request for the right reason**, and does nothing
else to it. -/
structure Vigilant (l : LockTable) : Prop where
  /-- Nobody waits for himself, along however many edges. -/
  acyclic : l.waits.Acyclic
  /-- In particular, nobody is noted as waiting for himself. -/
  loopless : ∀ t, t ∉ l.waits.successors t
  /-- A request that others stand in the way of is refused exactly if its
  transaction can be reached from one of them, once its edges are noted. -/
  refused : ∀ t page wanted, l.blockers t page wanted ≠ [] →
    ((∃ holder l', (acquire t page wanted).on l = (.error (.fault (.deadlock t holder)), l'))
      ↔ ∃ u ∈ l.blockers t page wanted,
        ReflTransGen (l.waits.put t (l.blockers t page wanted)).Edge u t)
  /-- A request that is refused changes no lock. -/
  locks : ∀ t page wanted cause l', (acquire t page wanted).on l = (.error (.fault cause), l') →
    l'.exclusive = l.exclusive ∧ l'.shared = l.shared ∧ l'.held = l.held
  /-- It takes away the notes of its transaction and no others. -/
  notes : ∀ t page wanted cause l', (acquire t page wanted).on l = (.error (.fault cause), l') →
    ∀ u, l'.waits.successors u = (if u = t then [] else l.waits.successors u)
      ∧ l'.waits.isWaiting u = (u ≠ t && l.waits.isWaiting u)

/-- **What asking for a lock comes to**, by what the request is answered. -/
theorem on_acquire : (acquire t page wanted).on l
    = (match (l.request t page wanted).1 with
      | .granted => .ok ()
      | .blocked => .error .wait
      | .deadlock holder => .error (.fault (.deadlock t holder)), (l.request t page wanted).2) :=
  rfl

/-- What is left of a table by a request that is refused. -/
theorem eq_of_acquire_fault {cause : Fault} {l' : LockTable}
    (h : (acquire t page wanted).on l = (.error (.fault cause), l')) :
    l' = { l with waits := l.waits.drop t } := by
  rw [on_acquire] at h
  rcases request_cases l t page wanted with ⟨-, r⟩ | ⟨-, -, holder, r⟩ | ⟨-, -, r⟩ <;>
    rw [r] at h <;> cases h
  rfl

/-- **A request that others stand in the way of is refused exactly if it finds
a cycle.** -/
theorem acquire_fault_iff (blocked : l.blockers t page wanted ≠ []) :
    (∃ holder l', (acquire t page wanted).on l = (.error (.fault (.deadlock t holder)), l'))
      ↔ (l.waits.put t (l.blockers t page wanted)).cycleFrom t = true := by
  rw [on_acquire]
  rcases request_cases l t page wanted with ⟨none, -⟩ | ⟨-, found, holder, r⟩ | ⟨-, missed, r⟩
  · exact absurd none blocked
  · rw [r, found]
    exact iff_of_true ⟨holder, _, rfl⟩ rfl
  · rw [r, missed]
    exact iff_of_false (fun ⟨_, _, h⟩ => by cases h) Bool.false_ne_true

/-- **The wait graph is acyclic at all times**, and a request is refused
exactly if it would wait for its own transaction – whatever was done before,
by whomever, and however old the notes of the others are. -/
theorem run_vigilant (actions : List LockAction) : (run actions).Vigilant where
  acyclic := acyclic_run actions
  loopless t edge := acyclic_run actions t (.single edge)
  refused _ _ _ blocked := (acquire_fault_iff blocked).trans (acyclic_run actions).cycleFrom_put_iff
  locks _ _ _ _ _ h := by
    rw [eq_of_acquire_fault h]
    exact ⟨rfl, rfl, rfl⟩
  notes _ _ _ _ _ h u := by
    rw [eq_of_acquire_fault h]
    exact ⟨WaitGraph.successors_drop, WaitGraph.isWaiting_drop⟩

end Tablespace.LockTable
