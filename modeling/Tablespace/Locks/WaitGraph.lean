import Tablespace.Ids

/-!
# Who waits for whom

A blocked transaction waits for the transactions that hold the lock it
needs. The **wait graph** has an edge from it to each of them; an edge is a
note of the time when the transaction last looked, and can be out of date.

If a transaction can come back to itself along the edges, all those on the
way wait for each other, and none of them will ever go on. `cycleFrom` tells
whether such a cycle can be reached from a transaction. It follows a path as
far as new transactions come, and goes back where none is left (`Search`). An
edge that leads back to the path closes a cycle. In what order the edges that
leave a transaction are taken is the order in which the graph lists them.
-/

namespace Tablespace

/-- **The wait graph**: each blocked transaction, and those it waits for. -/
structure WaitGraph where
  /-- The blocked transactions with their edges. -/
  edges : List (TxnId × List TxnId)
  deriving DecidableEq

namespace WaitGraph

/-- The graph in which nobody waits. -/
def empty : WaitGraph := ⟨[]⟩

/-- Those a transaction waits for. -/
def successors (g : WaitGraph) (t : TxnId) : List TxnId :=
  ((g.edges.find? (·.1 = t)).map (·.2)).getD []

/-- The number of edges in a list of them. -/
def edgeCount : (edges : List (TxnId × List TxnId)) → Nat
  | [] => 0
  | (_, others) :: edges => others.length + edgeCount edges

/-- The number of edges. -/
def size (g : WaitGraph) : Nat :=
  edgeCount g.edges

/-- Whether a transaction is noted as waiting. -/
def isWaiting (g : WaitGraph) (t : TxnId) : Bool :=
  g.edges.any (·.1 = t)

/-- The graph in which a transaction does not wait. -/
def drop (g : WaitGraph) (t : TxnId) : WaitGraph :=
  ⟨g.edges.filter (·.1 ≠ t)⟩

/-- The graph in which a transaction waits for these and no others. -/
def put (g : WaitGraph) (t : TxnId) (others : List TxnId) : WaitGraph :=
  ⟨(t, others) :: (g.drop t).edges⟩

/-- The graph in which none of these transactions waits. -/
def dropAll (g : WaitGraph) (seen : List TxnId) : WaitGraph :=
  ⟨g.edges.filter (·.1 ∉ seen)⟩

theorem dropAll_cons (g : WaitGraph) (t : TxnId) (seen : List TxnId) :
    g.dropAll (t :: seen) = (g.dropAll seen).drop t := by
  simp [dropAll, drop, List.filter_filter, not_or]

theorem successors_dropAll (g : WaitGraph) {t : TxnId} {seen : List TxnId} (new : t ∉ seen) :
    (g.dropAll seen).successors t = g.successors t := by
  unfold successors dropAll
  rw [List.find?_filter]
  refine congrArg (fun wanted => ((g.edges.find? wanted).map (·.2)).getD []) (funext fun e => ?_)
  by_cases here : e.1 = t
  · simp [here, new]
  · simp [here]

theorem size_drop_le (g : WaitGraph) (t : TxnId) : (g.drop t).size ≤ g.size := by
  obtain ⟨edges⟩ := g
  unfold drop size
  induction edges with
  | nil => exact Nat.le_refl 0
  | cons e edges ih =>
    dsimp only at ih ⊢
    rw [List.filter_cons]
    split <;> simp only [edgeCount] <;> omega

/-- To drop a transaction is to lose the edges that leave it, at least. -/
theorem length_successors_add_size_drop_le (g : WaitGraph) (t : TxnId) :
    (g.successors t).length + (g.drop t).size ≤ g.size := by
  obtain ⟨edges⟩ := g
  unfold successors
  induction edges with
  | nil => exact Nat.le_refl 0
  | cons e edges ih =>
    have fewer := size_drop_le ⟨edges⟩ t
    unfold drop size at ih fewer ⊢
    dsimp only at ih fewer ⊢
    rw [List.find?_cons, List.filter_cons, edgeCount]
    by_cases here : e.1 = t
    · rw [decide_eq_true here, if_neg (by simp [here])]
      exact Nat.add_le_add_left fewer _
    · rw [decide_eq_false here, if_pos (by simp [here]), edgeCount]
      dsimp only at ih ⊢
      omega

end WaitGraph

/-! ## Looking for a cycle -/

/-- **A search that is under way.** -/
structure Search where
  /-- The transactions that the search has come to. -/
  visited : List TxnId
  /-- Those of them that it has not gone back from. -/
  onPath : List TxnId
  /-- The path that it follows, the end first: each transaction on it, with those that it waits
  for and that have not been looked at. -/
  stack : List (TxnId × List TxnId)

namespace Search

/-- The search at its start. -/
def start (g : WaitGraph) (t : TxnId) : Search :=
  ⟨[t], [t], [(t, g.successors t)]⟩

/-- **One turn of a search**, which ends it with an answer or leaves it to go on. -/
def step (g : WaitGraph) (s : Search) : Bool ⊕ Search :=
  match s.stack with
  | [] => .inl false
  | (t, []) :: below => .inr { s with onPath := s.onPath.filter (· ≠ t), stack := below }
  | (t, u :: pending) :: below =>
    if u ∈ s.onPath then .inl true
    else if u ∈ s.visited then .inr { s with stack := (t, pending) :: below }
    else .inr ⟨u :: s.visited, u :: s.onPath, (u, g.successors u) :: (t, pending) :: below⟩

/-- **How many turns** a search can take at most until there is nothing left on its path. Each
edge that was not looked at costs one, and so does going back from where it leads. -/
def work (g : WaitGraph) (s : Search) : Nat :=
  2 * ((g.dropAll s.visited).size + WaitGraph.edgeCount s.stack) + s.stack.length

/-- A turn that does not end the search is one turn less to take. -/
theorem work_lt_of_step {g : WaitGraph} {s s' : Search} (h : s.step g = .inr s') :
    s'.work g < s.work g := by
  obtain ⟨visited, onPath, stack⟩ := s
  unfold step at h
  dsimp only at h
  split at h
  · cases h
  · cases h
    simp only [work, WaitGraph.edgeCount, List.length_nil, List.length_cons]
    omega
  · rename_i t u pending below
    split at h
    · cases h
    split at h
    · cases h
      simp only [work, WaitGraph.edgeCount, List.length_cons]
      omega
    · rename_i new
      cases h
      have less := (g.dropAll visited).length_successors_add_size_drop_le u
      rw [g.successors_dropAll new, ← g.dropAll_cons] at less
      simp only [work, WaitGraph.edgeCount, List.length_cons]
      omega

/-- **The answer of a search.** -/
def run (g : WaitGraph) (s : Search) : Bool :=
  match _h : s.step g with
  | .inl answer => answer
  | .inr s' => s'.run g
termination_by s.work g
decreasing_by exact work_lt_of_step _h

end Search

/-- **Whether a cycle can be reached** from a transaction. -/
def WaitGraph.cycleFrom (g : WaitGraph) (t : TxnId) : Bool :=
  (Search.start g t).run g

end Tablespace
