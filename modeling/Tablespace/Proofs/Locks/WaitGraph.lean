import Mathlib.Logic.Relation
import Tablespace.Locks.WaitGraph

/-!
# Cycles of waiting

An edge of the wait graph leads from a transaction to one that it waits for
(`WaitGraph.Edge`). A search keeps to a path, and goes back from a transaction
only when no path from there goes on for ever (`WaitGraph.Settled`). This is
what every turn preserves (`Search.Sound`), so `cycleFrom` tells exactly whether
some transaction that can be reached can come back to itself
(`WaitGraph.cycleFrom_iff`). It does so within two turns for each edge and two
more, in whatever order the edges are listed (`WaitGraph.search_decides`).

The question is asked of a graph that was **acyclic** until one transaction's
edges were put in the place of those it had. All cycles there can be go
through this transaction (`WaitGraph.Acyclic.cycleFrom_put_iff`), and if there
are none, the graph is acyclic again (`WaitGraph.Acyclic.put`).
-/

namespace Tablespace

open Relation

namespace WaitGraph

variable {g : WaitGraph} {t u v : TxnId} {others : List TxnId}

/-- **A transaction waits for another one**, by the notes. -/
def Edge (g : WaitGraph) (t u : TxnId) : Prop :=
  u ∈ g.successors t

/-- **Nobody waits for himself**, along however many edges. -/
def Acyclic (g : WaitGraph) : Prop :=
  ∀ t, ¬TransGen g.Edge t t

/-! ## Edges -/

@[simp]
theorem successors_empty : empty.successors t = [] :=
  rfl

/-- To drop a transaction is to take away its edges. -/
theorem successors_drop : (g.drop t).successors u = if u = t then [] else g.successors u := by
  unfold successors drop
  rw [List.find?_filter]
  split
  · rename_i same
    rw [List.find?_eq_none.2 fun e _ found => by simp [same] at found]
    rfl
  · rename_i other
    refine congrArg (fun wanted => ((g.edges.find? wanted).map (·.2)).getD []) (funext fun e => ?_)
    by_cases here : e.1 = u
    · simp [here, other]
    · simp [here]

/-- To put edges for a transaction is to put them in the place of its
own. -/
theorem successors_put :
    (g.put t others).successors u = if u = t then others else g.successors u := by
  split
  · rename_i same
    simp [successors, put, same]
  · rename_i other
    have rest : (g.drop t).successors u = g.successors u := by rw [successors_drop, if_neg other]
    rw [← rest, successors, successors, put, List.find?_cons_of_neg (by simpa using Ne.symm other)]

/-- A transaction that is dropped is not noted as waiting, and no other note
is lost. -/
theorem isWaiting_drop : (g.drop t).isWaiting u = (u ≠ t && g.isWaiting u) := by
  rw [Bool.eq_iff_iff]
  simp only [isWaiting, drop, List.any_filter, List.any_eq_true, Bool.and_eq_true,
    decide_eq_true_eq]
  grind

theorem edge_of_drop (edge : (g.drop t).Edge u v) : g.Edge u v := by
  unfold Edge at *
  rw [successors_drop] at edge
  split at edge
  · cases edge
  · exact edge

/-- Only the edges of one transaction are put. -/
theorem edge_of_put (other : u ≠ t) (edge : (g.put t others).Edge u v) : g.Edge u v := by
  unfold Edge at *
  rwa [successors_put, if_neg other] at edge

theorem edge_put_iff : (g.put t others).Edge t u ↔ u ∈ others := by
  rw [Edge, successors_put, if_pos rfl]

theorem acyclic_empty : empty.Acyclic := by
  intro t cycle
  obtain ⟨u, edge, -⟩ := TransGen.head'_iff.1 cycle
  cases edge

/-- There are no cycles in a part of an acyclic graph. -/
theorem Acyclic.drop (acyclic : g.Acyclic) : (g.drop t).Acyclic :=
  fun u cycle => acyclic u (TransGen.mono (fun _ _ => edge_of_drop) u u cycle)

/-! ## Transactions that no cycle can be reached from -/

/-- **No path goes on for ever** from a transaction. -/
def Settled (g : WaitGraph) (t : TxnId) : Prop :=
  Acc (fun u v => g.Edge v u) t

/-- Where a path leads that does not go on for ever, none does. -/
theorem Settled.of_path (settled : g.Settled t) (path : ReflTransGen g.Edge t u) :
    g.Settled u := by
  induction path with
  | refl => exact settled
  | tail _ edge ih => exact ih.inv edge

/-- A cycle is a path that goes on for ever. -/
theorem Settled.not_cycle (settled : g.Settled t) : ¬TransGen g.Edge t t := by
  induction settled with
  | intro t _ ih =>
    intro cycle
    obtain ⟨u, edge, back⟩ := TransGen.head'_iff.1 cycle
    exact ih u edge (.tail' back edge)

/-! ## The path of a search -/

/-- **The stack of a search is a path**, the end first, and accounts for the edges of those on
it: an edge leads to the next one on the path, if there is one (`next`), to one that is still to
be looked at, or to one that is settled. -/
def Trails (g : WaitGraph) : (next : List TxnId) → List (TxnId × List TxnId) → Prop
  | _, [] => True
  | next, (t, pending) :: below =>
    (∀ u ∈ next ++ pending, g.Edge t u)
      ∧ (∀ u, g.Edge t u → u ∈ next ++ pending ∨ g.Settled u)
      ∧ g.Trails [t] below

/-- **The end of a path can be taken away** when it is settled. -/
theorem Trails.settle {stack : List (TxnId × List TxnId)} (trails : g.Trails [t] stack)
    (settled : g.Settled t) : g.Trails [] stack := by
  cases stack with
  | nil => trivial
  | cons frame below =>
    obtain ⟨edges, all, rest⟩ := trails
    refine ⟨fun u hu => edges u (List.mem_cons_of_mem t hu), fun u edge => ?_, rest⟩
    rcases all u edge with there | old
    · rcases List.mem_cons.1 there with rfl | there
      · exact .inr settled
      · exact .inl there
    · exact .inr old

/-- All of a path leads to its end. -/
theorem Trails.path {next pending : List TxnId} {below : List (TxnId × List TxnId)}
    (trails : g.Trails next ((t, pending) :: below))
    (there : u ∈ ((t, pending) :: below).map (·.1)) : ReflTransGen g.Edge u t := by
  induction below generalizing t next pending with
  | nil => exact List.mem_singleton.1 there ▸ .refl
  | cons frame below ih =>
    obtain ⟨-, -, rest⟩ := trails
    rcases List.mem_cons.1 there with rfl | there
    · exact .refl
    · exact (ih rest there).tail (rest.1 t List.mem_cons_self)

end WaitGraph

/-! ## Every turn of a search -/

namespace Search

open WaitGraph

variable {g : WaitGraph} {t : TxnId} {s s' : Search} {found : Bool}

/-- **A search that accounts for what it has seen.** -/
structure Sound (g : WaitGraph) (t : TxnId) (s : Search) : Prop where
  /-- It keeps to its path. -/
  onPath : s.onPath = s.stack.map (·.1)
  nodup : s.onPath.Nodup
  /-- What it has gone back from is settled. -/
  visited : ∀ u ∈ s.visited, u ∈ s.onPath ∨ g.Settled u
  /-- It has come to where it started. -/
  started : t ∈ s.visited
  /-- The path can be reached from there. -/
  reached : ∀ u ∈ s.onPath, ReflTransGen g.Edge t u
  trails : g.Trails [] s.stack

theorem sound_start (g : WaitGraph) (t : TxnId) : (start g t).Sound g t where
  onPath := rfl
  nodup := List.pairwise_singleton _ t
  visited _ there := .inl there
  started := List.mem_cons_self
  reached _ there := List.mem_singleton.1 there ▸ .refl
  trails := ⟨fun _ there => there, fun _ edge => .inl edge, trivial⟩

/-- **Every turn that does not end a search leaves it sound.** -/
theorem Sound.step (sound : s.Sound g t) (h : s.step g = .inr s') : s'.Sound g t := by
  obtain ⟨visited, onPath, stack⟩ := s
  obtain ⟨path, nodup, seen, started, reached, trails⟩ := sound
  dsimp only at path nodup seen started reached trails
  subst path
  match stack with
  | [] => cases h
  | (u, []) :: below =>
    -- there is nothing left to look at, so all edges lead to what is settled
    cases h
    obtain ⟨-, all, rest⟩ := trails
    have settled : g.Settled u :=
      .intro u fun v edge => (all v edge).resolve_left List.not_mem_nil
    obtain ⟨new, nodup⟩ := List.nodup_cons.1 nodup
    have left : (((u, []) :: below).map (·.1)).filter (· ≠ u) = below.map (·.1) := by
      rw [List.map_cons, List.filter_cons_of_neg (by simp), List.filter_eq_self]
      exact fun v hv => decide_eq_true fun same => new (same ▸ hv)
    refine ⟨left, left ▸ nodup, fun v hv => ?_, started, fun v hv => ?_, rest.settle settled⟩
    · by_cases same : v = u
      · exact .inr (same ▸ settled)
      · exact (seen v hv).imp_left fun there => List.mem_filter.2 ⟨there, decide_eq_true same⟩
    · exact reached v (List.mem_filter.1 hv).1
  | (u, v :: pending) :: below =>
    obtain ⟨edges, all, rest⟩ := trails
    simp only [Search.step] at h
    split at h
    · cases h
    rename_i off
    split at h
    · -- an edge to what the search has gone back from
      rename_i old
      cases h
      have settled := (seen v old).resolve_left off
      refine ⟨rfl, nodup, seen, started, reached,
        fun w hw => edges w (List.mem_cons_of_mem v hw), fun w edge => ?_, rest⟩
      rcases all w edge with there | done
      · rcases List.mem_cons.1 there with rfl | there
        · exact .inr settled
        · exact .inl there
      · exact .inr done
    · -- an edge to what is new, which becomes the end of the path
      cases h
      have edge : g.Edge u v := edges v List.mem_cons_self
      refine ⟨rfl, List.nodup_cons.2 ⟨off, nodup⟩, fun w hw => ?_, List.mem_cons_of_mem v started,
        fun w hw => ?_, fun _ there => there, fun _ edge => .inl edge, edges, all, rest⟩
      · rcases List.mem_cons.1 hw with rfl | hw
        · exact .inl List.mem_cons_self
        · exact (seen w hw).imp_left (List.mem_cons_of_mem v)
      · rcases List.mem_cons.1 hw with rfl | hw
        · exact (reached u List.mem_cons_self).tail edge
        · exact reached w hw

/-- **A turn that ends a search** has come back to its path, or there is nothing left of it. -/
theorem Sound.found_iff (sound : s.Sound g t) (h : s.step g = .inl found) :
    found = true ↔ ∃ u, ReflTransGen g.Edge t u ∧ TransGen g.Edge u u := by
  obtain ⟨visited, onPath, stack⟩ := s
  obtain ⟨path, -, seen, started, reached, trails⟩ := sound
  dsimp only at path seen started reached trails
  subst path
  match stack with
  | [] =>
    cases h
    refine iff_of_false Bool.false_ne_true fun ⟨u, path, cycle⟩ => ?_
    have settled : g.Settled t := (seen t started).resolve_left List.not_mem_nil
    exact (settled.of_path path).not_cycle cycle
  | (u, []) :: below => cases h
  | (u, v :: pending) :: below =>
    simp only [Search.step] at h
    split at h
    · rename_i back
      cases h
      exact iff_of_true rfl
        ⟨v, reached v back, .tail' (trails.path back) (trails.1 v List.mem_cons_self)⟩
    · split at h <;> cases h

/-- **The answer of a search** is whether a cycle can be reached. -/
theorem Sound.run_iff (sound : s.Sound g t) :
    s.run g = true ↔ ∃ u, ReflTransGen g.Edge t u ∧ TransGen g.Edge u u := by
  fun_induction run g s with
  | case1 s found h => exact sound.found_iff h
  | case2 s s' h ih => exact ih (sound.step h)

/-! ## The number of turns -/

/-- **A search after some turns**, or the answer that it has come to by then. -/
def after (g : WaitGraph) : (turns : Nat) → Search → Bool ⊕ Search
  | 0, s => .inr s
  | turns + 1, s =>
    match s.step g with
    | .inl answer => .inl answer
    | .inr s' => after g turns s'

/-- As many turns as there is work, and one more, bring a search to its answer. -/
theorem after_eq_run {turns : Nat} (enough : s.work g < turns) :
    s.after g turns = .inl (s.run g) := by
  induction turns generalizing s with
  | zero => exact absurd enough (Nat.not_lt_zero _)
  | succ turns ih =>
    rw [after, run]
    cases h : s.step g with
    | inl answer => rfl
    | inr s' => exact ih (Nat.lt_of_lt_of_le (work_lt_of_step h) (Nat.le_of_lt_succ enough))

/-- There is work for two turns for each edge, and one more. -/
theorem work_start_le (g : WaitGraph) (t : TxnId) : (start g t).work g ≤ 2 * g.size + 1 := by
  have rest : g.dropAll [t] = g.drop t := by simp [dropAll, drop]
  have all := g.length_successors_add_size_drop_le t
  simp only [work, start, rest, edgeCount, List.length_cons, List.length_nil]
  omega

end Search

namespace WaitGraph

variable {g : WaitGraph} {t u v : TxnId} {others : List TxnId}

/-- **A cycle is found exactly if one can be reached.** -/
theorem cycleFrom_iff :
    g.cycleFrom t = true ↔ ∃ u, ReflTransGen g.Edge t u ∧ TransGen g.Edge u u :=
  (Search.sound_start g t).run_iff

/-- **The search for a cycle is correct on every graph.** It comes to its answer within two turns
for each edge and two more. The answer is whether a transaction can be reached that can come back
to itself, and another graph with the same edges, in whatever order it lists them, gives the same
answer. -/
theorem search_decides (g : WaitGraph) (t : TxnId) :
    (Search.start g t).after g (2 * g.size + 2) = .inl (g.cycleFrom t)
      ∧ (g.cycleFrom t = true ↔ ∃ u, ReflTransGen g.Edge t u ∧ TransGen g.Edge u u)
      ∧ ∀ h : WaitGraph, (∀ u v, h.Edge u v ↔ g.Edge u v) → h.cycleFrom t = g.cycleFrom t := by
  refine ⟨Search.after_eq_run (Nat.lt_succ_of_le (Search.work_start_le g t)), cycleFrom_iff,
    fun h same => ?_⟩
  have edges : h.Edge = g.Edge := funext fun u => funext fun v => propext (same u v)
  rw [Bool.eq_iff_iff, cycleFrom_iff, cycleFrom_iff, edges]

/-- Transactions `2` and `3` wait for each other, and `1` waits for both and for `4`, which waits
for nobody. The cycle is found from `1`, whichever edge is taken first, and none from `4`. -/
theorem search_decides_reordered :
    let g : WaitGraph := ⟨[(⟨2⟩, [⟨3⟩]), (⟨3⟩, [⟨2⟩]), (⟨1⟩, [⟨4⟩, ⟨2⟩, ⟨3⟩])]⟩
    let h : WaitGraph := g.put ⟨1⟩ [⟨3⟩, ⟨2⟩, ⟨4⟩]
    (∀ u v, h.Edge u v ↔ g.Edge u v)
      ∧ g.cycleFrom ⟨1⟩ = true ∧ h.cycleFrom ⟨1⟩ = g.cycleFrom ⟨1⟩
      ∧ g.cycleFrom ⟨4⟩ = false ∧ h.cycleFrom ⟨4⟩ = g.cycleFrom ⟨4⟩ := by
  intro g h
  have same : ∀ u v, h.Edge u v ↔ g.Edge u v := by
    intro u v
    rw [Edge, Edge, show h.successors u = _ from successors_put]
    split
    · rename_i here
      rw [here, show g.successors ⟨1⟩ = [⟨4⟩, ⟨2⟩, ⟨3⟩] from rfl]
      grind
    · exact Iff.rfl
  exact ⟨same, by decide +kernel, (search_decides g ⟨1⟩).2.2 h same, by decide +kernel,
    (search_decides g ⟨4⟩).2.2 h same⟩

/-! ## Edges in the place of others -/

section

variable {r s : TxnId → TxnId → Prop} (off : ∀ a b, a ≠ t → s a b → r a b)

include off

/-- A path is a path of the old edges, or goes through the transaction whose
edges are new. -/
theorem transGen_or_through (path : TransGen s u v) :
    TransGen r u v ∨ ReflTransGen s u t ∧ TransGen s t v := by
  induction path with
  | @single b edge =>
    by_cases here : u = t
    · exact .inr ⟨here ▸ .refl, .single (here ▸ edge)⟩
    · exact .inl (.single (off u b here edge))
  | @tail b c path edge ih =>
    by_cases here : b = t
    · exact .inr ⟨here ▸ path.to_reflTransGen, .single (here ▸ edge)⟩
    · exact ih.imp (.tail · (off b c here edge)) (And.imp_right (.tail · edge))

/-- A path to the transaction whose edges are new comes there by the old
edges. -/
theorem reflTransGen_to (path : ReflTransGen s u t) : ReflTransGen r u t := by
  induction path using ReflTransGen.head_induction_on with
  | refl => exact .refl
  | @head a b edge _ ih =>
    by_cases here : a = t
    · exact here ▸ .refl
    · exact .head (off a b here edge) ih

end

/-- A cycle that new edges make goes through the transaction that they
leave. -/
theorem Acyclic.cycle_put (acyclic : g.Acyclic) (cycle : TransGen (g.put t others).Edge u u) :
    TransGen (g.put t others).Edge t t := by
  have off : ∀ a b, a ≠ t → (g.put t others).Edge a b → g.Edge a b := fun _ _ => edge_of_put
  obtain ⟨there, back⟩ := (transGen_or_through off cycle).resolve_left (acyclic u)
  exact back.trans_left there

/-- Whether a cycle is found with new edges is whether their transaction waits
for itself with them. -/
theorem Acyclic.cycleFrom_put (acyclic : g.Acyclic) :
    (g.put t others).cycleFrom t = true ↔ TransGen (g.put t others).Edge t t := by
  rw [cycleFrom_iff]
  exact ⟨fun ⟨_, _, cycle⟩ => acyclic.cycle_put cycle, fun cycle => ⟨t, .refl, cycle⟩⟩

/-- **Whether new edges close a cycle** is whether their transaction can be
reached from one that it now waits for. -/
theorem Acyclic.cycleFrom_put_iff (acyclic : g.Acyclic) :
    (g.put t others).cycleFrom t = true
      ↔ ∃ u ∈ others, ReflTransGen (g.put t others).Edge u t := by
  rw [acyclic.cycleFrom_put, TransGen.head'_iff]
  simp only [edge_put_iff]

/-- **A graph in which no cycle is found stays acyclic.** -/
theorem Acyclic.put (acyclic : g.Acyclic) (found : (g.put t others).cycleFrom t = false) :
    (g.put t others).Acyclic := by
  intro u cycle
  have none : ¬(g.put t others).cycleFrom t = true := by simp [found]
  exact none (cycleFrom_iff.2 ⟨t, .refl, acyclic.cycle_put cycle⟩)

end WaitGraph

end Tablespace
