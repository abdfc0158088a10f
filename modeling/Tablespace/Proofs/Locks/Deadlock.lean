import Mathlib.Data.List.Permutation
import Tablespace.Proofs.Locks.Notes

/-!
# Deadlocks

Transactions that are not blocked take steps: one asks for a lock, or gives up
some of those it holds. After every step the blocked requests are asked again,
one at a time and in whatever order (`LockClients.Recheck`), until that changes
nothing any more (`LockClients.Quiet`). What can be got by such steps is
`LockClients.Reachable`, and settling by rounds is one way to get there
(`LockClients.reachable_run`).

Between steps the notes of waiting are exact, and on the way they are good
enough. `LockClients.Reachable.detects` says what follows: a request is refused
exactly if it closes a cycle of waiting, so that there is none at any time, and
nobody is refused who was already waiting.
-/

namespace Tablespace

open Relation

namespace LockClients

/-- The requests that wait. -/
def requests (c : LockClients) : List LockRequest :=
  c.blocked.map (·.call)

/-- **A step of a transaction.** A request that has to wait is blocked. -/
def step (c : LockClients) (ticket : Nat) : LockAction → LockClients
  | .request t page wanted => (c.ask ticket ⟨t, page, wanted⟩).2
  | action => c.change (·.act action)

/-- **A blocked request is asked again**: one more turn of it. -/
inductive Recheck : LockClients → LockClients → Prop
  /-- It is answered, and waits no longer. -/
  | answered {l l' : LockTable} {b : Blocked LockRequest} {answer : Except Fault Unit}
      (before after : List (Blocked LockRequest)) (h : b.call.ask l = (.answered answer, l')) :
      Recheck ⟨l, before ++ b :: after⟩ ⟨l', before ++ after⟩
  /-- It has to wait on. -/
  | blocked {l l' : LockTable} {b : Blocked LockRequest} {moved : Bool} {call : LockRequest}
      (before after : List (Blocked LockRequest)) (h : b.call.ask l = (.blocked moved call, l')) :
      Recheck ⟨l, before ++ b :: after⟩ ⟨l', before ++ ⟨b.ticket, call⟩ :: after⟩

/-- **Asking blocked requests again changes nothing**: neither the requests, nor
who holds what, nor who is noted as waiting for whom. -/
def Quiet (c : LockClients) : Prop :=
  ∀ c', Recheck c c' → c'.blocked = c.blocked ∧ c'.table.mode? = c.table.mode?
    ∧ ∀ t u, c'.table.waits.Edge t u ↔ c.table.waits.Edge t u

/-- **What steps lead to**, if after each of them blocked requests are asked
again, in any order, until that changes nothing. -/
inductive Reachable : LockClients → Prop
  | empty : Reachable empty
  | step {c c' : LockClients} {ticket : Nat} {action : LockAction} (h : Reachable c)
      (idle : c.isBusy action.txn = false)
      (rechecks : ReflTransGen Recheck (c.step ticket action) c') (quiet : c'.Quiet) : Reachable c'

variable {c c' : LockClients} {l : LockTable} {r : LockRequest} {t u : TxnId} {ticket : Nat}
  {action : LockAction}

theorem isBusy_eq_false_iff : c.isBusy t = false ↔ t ∉ c.requests.map (·.txn) := by
  simp [isBusy, requests]

/-- Any of the blocked requests may be taken for the first. -/
theorem requests_perm (b : Blocked LockRequest) (before after : List (Blocked LockRequest)) :
    (requests ⟨l, before ++ b :: after⟩).Perm (b.call :: requests ⟨l, before ++ after⟩) :=
  List.perm_middle.map _

/-! ## Blocked requests are asked again -/

/-- **What asking a blocked request again comes to**, if the notes are good
enough: it is granted, or its notes are brought up to date. -/
theorem Recheck.cases (recheck : Recheck c c') (h : c.table.Orderly c.requests) :
    (∃ r, c.requests.Perm (r :: c'.requests) ∧ c.table.blockers r.txn r.page r.mode = []
      ∧ c'.table = c.table.grant r.txn r.page r.mode)
    ∨ ∃ r rest, c.requests.Perm (r :: rest) ∧ c'.blocked = c.blocked
      ∧ c.table.blockers r.txn r.page r.mode ≠ []
      ∧ c'.table = { c.table with
          waits := c.table.waits.put r.txn (c.table.blockers r.txn r.page r.mode) } := by
  cases recheck with
  | @answered l l' b answer before after asked =>
    have perm := requests_perm (l := l) b before after
    rcases (h.perm perm).ask with ⟨free, eq⟩ | ⟨up, eq⟩ <;> rw [eq] at asked <;> cases asked
    exact .inl ⟨b.call, perm, free, rfl⟩
  | @blocked l l' b moved call before after asked =>
    have perm := requests_perm (l := l) b before after
    rcases (h.perm perm).ask with ⟨free, eq⟩ | ⟨up, eq⟩ <;> rw [eq] at asked <;> cases asked
    exact .inr ⟨b.call, _, perm, rfl, up, rfl⟩

/-- **Asking blocked requests again** keeps the notes good enough. -/
theorem Recheck.orderly (recheck : Recheck c c') (h : c.table.Orderly c.requests) :
    c'.table.Orderly c'.requests := by
  rcases recheck.cases h with ⟨r, perm, free, granted⟩ | ⟨r, rest, perm, same, up, noted⟩
  · have single := List.nodup_cons.1 (h.perm perm).single
    rw [granted]
    exact (h.perm perm).grant (List.sublist_cons_self _ _) single.1
      (fun s hs => (List.mem_cons.1 hs).imp_left (congrArg LockRequest.txn))
      (LockTable.blockers_eq_nil_iff.1 free)
  · rw [noted, requests, same]
    exact (h.perm perm).put.perm perm.symm

theorem orderly_of_rechecks (rechecks : ReflTransGen Recheck c c')
    (h : c.table.Orderly c.requests) : c'.table.Orderly c'.requests := by
  induction rechecks with
  | refl => exact h
  | tail _ recheck ih => exact recheck.orderly ih

/-- A blocked request is never refused when it is asked again. -/
theorem ask_ne_error {b : Blocked LockRequest} (h : c.table.Orderly c.requests)
    (there : b ∈ c.blocked) (cause : Fault) :
    (b.call.ask c.table).1 ≠ .answered (.error cause) := by
  obtain ⟨before, after, split⟩ := List.append_of_mem there
  have perm := requests_perm (l := c.table) b before after
  rw [← split] at perm
  rcases (h.perm perm).ask with ⟨-, eq⟩ | ⟨-, eq⟩ <;> rw [eq] <;> intro error <;> cases error

/-- **Exact notes stay as they are** when a blocked request is asked again, and
so does everything else. -/
theorem Recheck.eq_of_settled (recheck : Recheck c c') (h : c.table.Settled c.requests) :
    c'.blocked = c.blocked ∧ c'.table.mode? = c.table.mode?
      ∧ ∀ t u, c'.table.waits.Edge t u ↔ c.table.waits.Edge t u := by
  rcases recheck.cases h.orderly with ⟨r, perm, free, -⟩ | ⟨r, rest, perm, same, up, noted⟩
  · have there : r ∈ c.requests := perm.mem_iff.2 List.mem_cons_self
    exact absurd free (LockRequest.exists_heldUpBy_iff.1 (h.exact r there).heldUp)
  · have there : r ∈ c.requests := perm.mem_iff.2 List.mem_cons_self
    refine ⟨same, by rw [noted, LockTable.mode?_waits], fun t u => ?_⟩
    rw [noted]
    by_cases mine : t = r.txn
    · rw [mine, WaitGraph.edge_put_iff, (h.exact r there).edges, LockRequest.heldUpBy_iff]
    · rw [WaitGraph.Edge, WaitGraph.successors_put, if_neg mine, WaitGraph.Edge]

theorem quiet_of_settled (h : c.table.Settled c.requests) : c.Quiet :=
  fun _ recheck => recheck.eq_of_settled h

/-- **Good notes that asking again does not change are exact.** -/
theorem Quiet.settled (quiet : c.Quiet) (h : c.table.Orderly c.requests) :
    c.table.Settled c.requests := by
  refine ⟨h.sound, h.single, h.idle, fun r hr => ?_, h.acyclic⟩
  obtain ⟨b, hb, rfl⟩ := List.mem_map.1 hr
  obtain ⟨before, after, split⟩ := List.append_of_mem hb
  have perm := requests_perm (l := c.table) b before after
  have eq : c = ⟨c.table, before ++ b :: after⟩ := by rw [← split]
  rw [← split] at perm
  rcases (h.perm perm).ask with ⟨free, asked⟩ | ⟨up, asked⟩
  · -- a request that is granted is blocked no longer
    have recheck := Recheck.answered before after asked
    rw [← eq] at recheck
    have fewer := congrArg List.length (quiet _ recheck).1
    rw [split] at fewer
    simp at fewer
  · have recheck := Recheck.blocked before after asked
    rw [← eq] at recheck
    refine ⟨fun u => ?_, LockRequest.exists_heldUpBy_iff.2 up⟩
    rw [← (quiet _ recheck).2.2 b.call.txn u]
    exact (LockTable.exact_put up).edges u

/-! ## Steps -/

variable (ticket) in
/-- **A step from exact notes** leaves notes that are good enough. -/
theorem orderly_step (h : c.table.Settled c.requests) (idle : c.isBusy action.txn = false) :
    (c.step ticket action).table.Orderly (c.step ticket action).requests := by
  rw [isBusy_eq_false_iff] at idle
  cases action with
  | request t page wanted =>
    have cases := LockRequest.ask_cases ⟨t, page, wanted⟩ c.table
    rcases cases with ⟨free, eq⟩ | ⟨-, -, holder, eq⟩ | ⟨up, missed, eq⟩ <;>
      rw [step, ask, eq]
    · exact h.orderly.grant (List.Sublist.refl _) idle (fun _ => .inr)
        (LockTable.blockers_eq_nil_iff.1 free)
    · exact (h.drop idle).orderly
    · refine ((h.put (r := ⟨t, page, wanted⟩) idle up missed).perm ?_).orderly
      simpa [requests] using (List.perm_append_singleton _ _).symm
  | release t page => exact h.orderly.giveUp (fun _ _ _ h => by cases h) idle
  | downgrade t page => exact h.orderly.giveUp (fun _ _ _ h => by cases h) idle
  | releaseAll t => exact h.orderly.giveUp (fun _ _ _ h => by cases h) idle

/-- **The notes are exact between steps.** -/
theorem Reachable.settled (h : Reachable c) : c.table.Settled c.requests := by
  induction h with
  | empty => exact LockTable.settled_empty
  | step _ idle rechecks quiet ih =>
    exact quiet.settled (orderly_of_rechecks rechecks (orderly_step _ ih idle))

/-! ## Settling by rounds -/

/-- Asking for a lock in vain gets the request no further. -/
theorem eq_of_ask_blocked {moved : Bool} {call : LockRequest} {l' : LockTable}
    (h : r.ask l = (.blocked moved call, l')) : moved = false ∧ call = r := by
  rcases r.ask_cases l with ⟨-, eq⟩ | ⟨-, -, holder, eq⟩ | ⟨-, -, eq⟩ <;> rw [eq] at h <;> cases h
  exact ⟨rfl, rfl⟩

/-- A round asks the blocked requests one after another. -/
theorem round_rechecks (before bs : List (Blocked LockRequest)) (l : LockTable) :
    ReflTransGen Recheck ⟨l, before ++ bs⟩ ⟨(Blocked.round LockRequest.ask bs l).state,
      before ++ (Blocked.round LockRequest.ask bs l).blocked⟩ := by
  induction bs generalizing before l with
  | nil => exact .refl
  | cons b bs ih =>
    rw [Blocked.round]
    rcases asked : b.call.ask l with ⟨answer | ⟨moved, call⟩, l'⟩
    · exact .head (.answered before bs asked) (ih before l')
    · have rest := ih (before ++ [⟨b.ticket, call⟩]) l'
      rw [List.append_assoc, List.append_assoc] at rest
      exact .head (.blocked before bs asked) rest

/-- A round in which something moves finishes a request. -/
theorem length_round (bs : List (Blocked LockRequest)) (l : LockTable) :
    (Blocked.round LockRequest.ask bs l).blocked.length
        + (Blocked.round LockRequest.ask bs l).moved.toNat ≤ bs.length := by
  induction bs generalizing l with
  | nil => exact Nat.le_refl _
  | cons b bs ih =>
    rw [Blocked.round]
    rcases asked : b.call.ask l with ⟨answer | ⟨moved, call⟩, l'⟩
    · have := ih l'
      simp only [Bool.toNat_true, List.length_cons]
      omega
    · obtain ⟨rfl, -⟩ := eq_of_ask_blocked asked
      have := ih l'
      simp only [Bool.false_or, List.length_cons]
      omega

/-- **A round in which nothing moves** makes the notes exact, of the requests
that were asked, on top of others whose notes were exact before. -/
theorem settled_of_round (before : List (Blocked LockRequest)) {bs : List (Blocked LockRequest)}
    (h : l.Orderly (requests ⟨l, before ++ bs⟩)) (exact : ∀ b ∈ before, l.Exact b.call)
    (still : (Blocked.round LockRequest.ask bs l).moved = false) :
    (Blocked.round LockRequest.ask bs l).state.Settled
      (requests ⟨l, before ++ (Blocked.round LockRequest.ask bs l).blocked⟩) := by
  induction bs generalizing before l with
  | nil =>
    refine ⟨h.sound, h.single, h.idle, fun r hr => ?_, h.acyclic⟩
    obtain ⟨b, hb, rfl⟩ := List.mem_map.1 hr
    exact exact b ((List.mem_append.1 hb).resolve_right List.not_mem_nil)
  | cons b bs ih =>
    have perm := requests_perm (l := l) b before bs
    rw [Blocked.round] at still ⊢
    rcases (h.perm perm).ask with ⟨-, asked⟩ | ⟨up, asked⟩ <;> rw [asked] at still ⊢
    · cases still
    · have next := (h.perm perm).put.perm perm.symm
      dsimp only at still ⊢
      rw [requests, List.append_cons] at next ⊢
      refine ih _ next (fun a ha => ?_) still
      rcases List.mem_append.1 ha with old | new
      · refine (exact a old).put fun same => (List.nodup_cons.1 (h.perm perm).single).1 ?_
        exact List.mem_map.2 ⟨a.call, List.mem_map_of_mem (List.mem_append_left _ old), same⟩
      · exact List.mem_singleton.1 new ▸ LockTable.exact_put up

/-- **Settling blocked requests** asks them again until that changes
nothing. -/
theorem settle_spec (rounds : Nat) {bs : List (Blocked LockRequest)}
    (h : l.Orderly (requests ⟨l, bs⟩)) (enough : bs.length < rounds) :
    ReflTransGen Recheck ⟨l, bs⟩ ⟨(Blocked.settle LockRequest.ask rounds bs l).state,
        (Blocked.settle LockRequest.ask rounds bs l).blocked⟩
      ∧ (Blocked.settle LockRequest.ask rounds bs l).state.Settled
        (requests ⟨l, (Blocked.settle LockRequest.ask rounds bs l).blocked⟩) := by
  induction rounds generalizing bs l with
  | zero => exact absurd enough (Nat.not_lt_zero _)
  | succ rounds ih =>
    have first := round_rechecks [] bs l
    have fewer := length_round bs l
    rw [Blocked.settle]
    dsimp only
    split
    · rename_i moved
      rw [moved, Bool.toNat_true] at fewer
      have less := Nat.lt_of_lt_of_le (Nat.lt_of_succ_le fewer) (Nat.le_of_lt_succ enough)
      have later := ih (orderly_of_rechecks first h) less
      exact ⟨first.trans later.1, later.2⟩
    · rename_i still
      exact ⟨first, settled_of_round [] h (fun _ h => absurd h List.not_mem_nil)
        (Bool.eq_false_iff.2 still)⟩

/-- **A step, and what it sets free**, for a request with the number by which
it is known. A transaction that is blocked takes no step. -/
def perform (c : LockClients) (ticket : Nat) (action : LockAction) : LockClients :=
  if c.isBusy action.txn then c else (c.step ticket action).settle.2

/-- **Steps one after another.** -/
def run (actions : List (Nat × LockAction)) : LockClients :=
  actions.foldl (fun c a => c.perform a.1 a.2) empty

theorem Reachable.perform (h : Reachable c) : Reachable (c.perform ticket action) := by
  unfold LockClients.perform
  split
  · exact h
  · rename_i idle
    have idle := Bool.eq_false_iff.2 idle
    have spec := settle_spec _ (orderly_step ticket h.settled idle) (Nat.lt_succ_self _)
    exact h.step idle spec.1 (quiet_of_settled spec.2)

/-- What a series of steps leads to can be reached. -/
theorem reachable_run (actions : List (Nat × LockAction)) : Reachable (run actions) := by
  have go (c : LockClients) (h : Reachable c) :
      Reachable (actions.foldl (fun c a => c.perform a.1 a.2) c) := by
    induction actions generalizing c with
    | nil => exact h
    | cons a actions ih => exact ih _ h.perform
  exact go empty .empty

/-! ## What is detected -/

/-- **Deadlocks are detected**, all of them and no others, as they are about to
come into being. -/
structure Detects (c : LockClients) : Prop where
  /-- A new request is granted exactly if nobody holds it up. -/
  granted : ∀ ticket r, c.isBusy r.txn = false →
    ((c.ask ticket r).1 = some (.ok ()) ↔ ¬∃ u, r.HeldUpBy c.table.mode? u)
  /-- One that is held up is refused exactly if its transaction would wait for
  itself, along however many others. -/
  refused : ∀ ticket r, c.isBusy r.txn = false → (∃ u, r.HeldUpBy c.table.mode? u) →
    ((∃ holder, (c.ask ticket r).1 = some (.error (.deadlock r.txn holder)))
      ↔ TransGen (WaitsFor c.table.mode? (r :: c.requests)) r.txn r.txn)
  /-- There is no other way of being refused. -/
  cause : ∀ ticket r cause, (c.ask ticket r).1 = some (.error cause) →
    ∃ holder, cause = .deadlock r.txn holder
  /-- A refusal changes no lock of anybody, nor who is blocked. -/
  unchanged : ∀ ticket r cause, (c.ask ticket r).1 = some (.error cause) →
    (c.ask ticket r).2.table.exclusive = c.table.exclusive
      ∧ (c.ask ticket r).2.table.shared = c.table.shared
      ∧ (c.ask ticket r).2.table.held = c.table.held ∧ (c.ask ticket r).2.blocked = c.blocked
  /-- A transaction has one blocked request at most. -/
  single : (c.requests.map (·.txn)).Nodup
  /-- Nobody waits for himself. -/
  acyclic : ∀ t, ¬TransGen (WaitsFor c.table.mode? c.requests) t t
  /-- Every blocked request is held up by somebody. -/
  heldUp : ∀ r ∈ c.requests, ∃ u, r.HeldUpBy c.table.mode? u
  /-- The notes say who holds it up, and nothing else. -/
  noted : ∀ r ∈ c.requests, ∀ u, u ∈ c.table.waits.successors r.txn ↔ r.HeldUpBy c.table.mode? u
  /-- Whatever step is taken, no blocked request is refused when it is asked
  again afterwards. -/
  rechecks : ∀ ticket action c' b, c.isBusy action.txn = false →
    ReflTransGen Recheck (c.step ticket action) c' → b ∈ c'.blocked →
    ∀ cause, (b.call.ask c'.table).1 ≠ .answered (.error cause)

/-- **A new request is refused** exactly if it closes a cycle of waiting. -/
theorem ask_refused_iff (h : c.table.Settled c.requests) (idle : c.isBusy r.txn = false)
    (up : ∃ u, r.HeldUpBy c.table.mode? u) :
    (∃ holder, (c.ask ticket r).1 = some (.error (.deadlock r.txn holder)))
      ↔ TransGen (WaitsFor c.table.mode? (r :: c.requests)) r.txn r.txn := by
  have notes : (c.table.waits.put r.txn (c.table.blockers r.txn r.page r.mode)).Edge
      = WaitsFor c.table.mode? (r :: c.requests) := by
    funext t u
    exact propext (h.edge_put_iff (isBusy_eq_false_iff.1 idle))
  rw [← notes, ← h.acyclic.cycleFrom_put]
  rcases r.ask_cases c.table with ⟨free, -⟩ | ⟨-, found, holder, eq⟩ | ⟨-, missed, eq⟩
  · exact absurd free (LockRequest.exists_heldUpBy_iff.1 up)
  · rw [ask, eq, found]
    exact iff_of_true ⟨holder, rfl⟩ rfl
  · rw [ask, eq, missed]
    exact iff_of_false (fun ⟨_, h⟩ => by cases h) Bool.false_ne_true

/-- What a refused request comes to. -/
theorem ask_error {cause : Fault} (h : (c.ask ticket r).1 = some (.error cause)) :
    (∃ holder, cause = .deadlock r.txn holder)
      ∧ (c.ask ticket r).2
        = { c with table := { c.table with waits := c.table.waits.drop r.txn } } := by
  rcases r.ask_cases c.table with ⟨-, eq⟩ | ⟨-, -, holder, eq⟩ | ⟨-, -, eq⟩ <;>
    rw [ask, eq] at h ⊢ <;> cases h
  exact ⟨⟨holder, rfl⟩, rfl⟩

/-- **Deadlocks are detected** in whatever is reached by steps, if blocked
requests are asked again after each of them, in any order. -/
theorem Reachable.detects (h : Reachable c) : c.Detects where
  granted ticket r _ := by
    rw [LockRequest.exists_heldUpBy_iff, not_not]
    rcases r.ask_cases c.table with ⟨free, eq⟩ | ⟨up, -, holder, eq⟩ | ⟨up, -, eq⟩ <;>
      rw [ask, eq]
    · exact iff_of_true rfl free
    · exact iff_of_false (fun h => by cases h) up
    · exact iff_of_false (fun h => by cases h) up
  refused _ _ idle up := ask_refused_iff h.settled idle up
  cause _ _ _ refused := (ask_error refused).1
  unchanged _ _ _ refused := by
    rw [(ask_error refused).2]
    exact ⟨rfl, rfl, rfl, rfl⟩
  single := h.settled.single
  acyclic t cycle := h.settled.acyclic t
    (TransGen.mono (fun _ _ => h.settled.edge_iff.2) t t cycle)
  heldUp r hr := (h.settled.exact r hr).heldUp
  noted r hr := (h.settled.exact r hr).edges
  rechecks _ _ _ _ idle rechecks there :=
    ask_ne_error (orderly_of_rechecks rechecks (orderly_step _ h.settled idle)) there

/-- Two transactions that lock two pages in opposite order, as far as the
first of them being blocked. -/
def crossing : List (Nat × LockAction) :=
  [(0, .request ⟨1⟩ ⟨⟨1⟩, 0⟩ .exclusive), (1, .request ⟨2⟩ ⟨⟨1⟩, 1⟩ .exclusive),
    (2, .request ⟨1⟩ ⟨⟨1⟩, 1⟩ .exclusive)]

/-- The second of them is refused, and the first is still blocked then. -/
theorem detects_crossing : Reachable (run crossing) ∧ (run crossing).Detects
    ∧ (run crossing).isBusy ⟨1⟩ = true ∧ (run crossing).isBusy ⟨2⟩ = false
    ∧ ((run crossing).ask 3 ⟨⟨2⟩, ⟨⟨1⟩, 0⟩, .exclusive⟩).1 = some (.error (.deadlock ⟨2⟩ ⟨1⟩)) :=
  ⟨reachable_run crossing, (reachable_run crossing).detects,
    by cbv, by cbv, by cbv⟩

end LockClients

end Tablespace