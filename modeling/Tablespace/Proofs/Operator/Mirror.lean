import Mathlib.Data.Multiset.Bind
import Tablespace.Proofs.Operator.Plan
import Tablespace.Proofs.Value.Order

/-!
# A join in the mirror

Which operator of a join is the left one is a matter of cost: the right one is run through once
for each row of the left one. To change sides, the fields of the predicate change places and the
comparison is turned round (`JoinPredicate.mirrored`). The order of the pairs is another one then,
and so is the order of the values in a row, but the pairs are the same, each as many times.

`LIKE` cannot be turned round. All other comparisons can because the order of two values in the
other direction is the reverse, also if there is none.
-/

namespace Tablespace

namespace Comparison

/-- **A comparison from the other side.** -/
def mirrored : Comparison → Comparison
  | equal => equal
  | greater => less
  | less => greater
  | atMost => atLeast
  | atLeast => atMost
  | like => like
  | unequal => unequal

/-- A comparison by the order holds if it does from the other side. -/
theorem mirrored_holds {comparison : Comparison} (other : comparison ≠ .like) (a b : Value) :
    comparison.mirrored.holds b a = comparison.holds a b := by
  have turned : comparison.mirrored ≠ .like := by
    cases comparison with
    | like => exact absurd rfl other
    | _ => decide
  rw [holds_eq turned, holds_eq other, Value.compare?_swap a b]
  cases a.compare? b with
  | none => cases comparison <;> rfl
  | some o => cases comparison <;> cases o <;> rfl

end Comparison

namespace JoinPredicate

variable {p : JoinPredicate} {schema : Schema} {left right : List Tuple}

/-- **A predicate on two rows that have changed sides.** -/
def mirrored (p : JoinPredicate) : JoinPredicate :=
  ⟨p.right, p.comparison.mirrored, p.left⟩

/-- It holds of them if the predicate did before. -/
theorem mirrored_holds (other : p.comparison ≠ .like) (a b : Tuple) :
    p.mirrored.holds b a = p.holds a b := by
  unfold holds mirrored
  dsimp only
  cases a.value? p.left <;> cases b.value? p.right
  case some.some v w => exact Comparison.mirrored_holds other v w
  all_goals rfl

/-- **The pairs of rows that a predicate picks out**, left row by left row. -/
def matching (p : JoinPredicate) (left right : List Tuple) : List (Tuple × Tuple) :=
  (left ×ˢ right).filter fun pair => p.holds pair.1 pair.2

/-- What a join means are these pairs, as one row each. -/
theorem pairs_eq :
    p.pairs schema left right
      = (p.matching left right).map fun pair => pair.1.beside pair.2 schema := by
  have all : left ×ˢ right = left.flatMap fun a => right.map (Prod.mk a) := rfl
  rw [pairs, matching, all, List.filter_flatMap, List.map_flatMap]
  refine List.flatMap_congr fun a _ => ?_
  rw [List.filter_map, List.map_map]
  rfl

/-- **The mirrored predicate picks out the same pairs**, in another order. -/
theorem matching_mirrored_perm (other : p.comparison ≠ .like) (left right : List Tuple) :
    ((p.mirrored.matching right left).map Prod.swap).Perm (p.matching left right) := by
  have swapped : ((right ×ˢ left).map Prod.swap).Perm (left ×ˢ right) := by
    rw [← Multiset.coe_eq_coe, ← Multiset.map_coe, ← Multiset.coe_product, ← Multiset.coe_product,
      Multiset.map_swap_product]
  have same : (fun pair : Tuple × Tuple => p.mirrored.holds pair.1 pair.2)
      = (fun pair => p.holds pair.1 pair.2) ∘ Prod.swap := by
    funext pair
    exact mirrored_holds other pair.2 pair.1
  rw [matching, same, ← List.filter_map]
  exact swapped.filter _

end JoinPredicate

/-- The values of two rows beside each other are those of the one and then those of the other. -/
theorem Tuple.values_beside {a b : Tuple} {left right : Schema} (admitted : left.Admits a)
    (admitted' : right.Admits b) :
    (a.beside b (left.append right)).values = a.values ++ b.values := by
  have length : (a.values ++ b.values).length = (left.append right).columns.length := by
    rw [List.length_append, ← admitted.length_eq, ← admitted'.length_eq, Schema.append,
      List.length_append]
  rw [Tuple.beside, dif_pos length]

/-- **A plan gives all that it means** when it is started and its rows are collected. -/
theorem Plan.Means.collects {p : Plan} {all : List Tuple} (means : p.Means all) {s : p.State}
    (idle : p.Idle s) (e : Engine) :
    (p.operator.answers [.start, .collect] s e).1 = [.ok .done, .ok (.rows all)] := by
  obtain ⟨Stands, gives⟩ := means.gives
  exact gives.answers_start e idle ⟨fun rewind => (by cases rewind), trivial⟩

/-- **The halves of the rows** that a join means are the pairs that its predicate picks out. -/
theorem Plan.Means.halves {l r : Plan} {left right : List Tuple} (p : JoinPredicate)
    (meansL : l.Means left) (meansR : r.Means right) :
    (p.pairs (l.schema.append r.schema) left right).map
        (fun row => row.values.splitAt l.schema.columns.length)
      = (p.matching left right).map fun pair => (pair.1.values, pair.2.values) := by
  rw [JoinPredicate.pairs_eq, List.map_map]
  refine List.map_congr_left fun pair there => ?_
  obtain ⟨ha, hb⟩ := List.mem_product.1 (List.mem_filter.1 there).1
  have length : pair.1.values.length = l.schema.columns.length :=
    (meansL.admits _ ha).length_eq.symm
  rw [Function.comp_apply, Tuple.values_beside (meansL.admits _ ha) (meansR.admits _ hb), ← length,
    List.splitAt_eq, List.take_left, List.drop_left]

/-- **Comparisons are consistent.** The values of each kind are in an order, across the widths of
integers, and the comparisons are those of an order; values of different kinds are unequal, and no
more. Therefore a join can change sides, if it does not ask for `LIKE`: it gives its rows, of which
the left halves and right halves are the pairs of rows that satisfy the predicate, and the join
with the sides changed and the comparison turned round gives the same pairs, each as many times. -/
theorem Comparison.consistent :
    (∀ a b c : Value, Laws a b c)
      ∧ ∀ (p : JoinPredicate) (l r : Plan) (left right : List Tuple), p.comparison ≠ .like →
        l.Means left → r.Means right →
        ∀ (s : (Plan.join p l r).State) (t : (Plan.join p.mirrored r l).State) (e f : Engine),
          (Plan.join p l r).Idle s → (Plan.join p.mirrored r l).Idle t →
          ∃ rows mirrored : List Tuple,
            ((Plan.join p l r).operator.answers [.start, .collect] s e).1
                = [.ok .done, .ok (.rows rows)]
              ∧ ((Plan.join p.mirrored r l).operator.answers [.start, .collect] t f).1
                = [.ok .done, .ok (.rows mirrored)]
              ∧ rows.map (fun row => row.values.splitAt l.schema.columns.length)
                = (p.matching left right).map (fun pair => (pair.1.values, pair.2.values))
              ∧ (mirrored.map fun row => (row.values.splitAt r.schema.columns.length).swap).Perm
                (rows.map fun row => row.values.splitAt l.schema.columns.length) := by
  refine ⟨laws, fun p l r left right other meansL meansR s t e f idle idle' => ?_⟩
  refine ⟨_, _, (Plan.Means.join meansL meansR).collects idle e,
    (Plan.Means.join meansR meansL).collects idle' f, meansL.halves p meansR, ?_⟩
  have turned : ((p.mirrored.pairs (r.schema.append l.schema) right left).map
        fun row => (row.values.splitAt r.schema.columns.length).swap)
      = ((p.mirrored.matching right left).map Prod.swap).map
        fun pair => (pair.1.values, pair.2.values) := by
    have halves := congrArg (List.map Prod.swap) (meansR.halves p.mirrored meansL)
    rw [List.map_map, List.map_map] at halves
    rw [List.map_map]
    exact halves
  rw [turned, meansL.halves p meansR]
  exact (JoinPredicate.matching_mirrored_perm other left right).map _

/-- Rows of one number each. -/
def Plan.numbers (type : DataType) (list : List Value) : Plan :=
  rows ⟨[⟨"n", type⟩]⟩ (list.map fun value => ⟨⟨[⟨"n", type⟩]⟩, [value], none, rfl⟩)

/-- A join by `<` of numbers of both widths with others, and the join of the others with them
by `>`. -/
theorem Comparison.consistent_widths :
    let l := Plan.numbers .bigint [.int 1, .big 3, .big 2]
    let r := Plan.numbers .integer [.int 2, .int 3]
    let join := Plan.join ⟨0, .less, 0⟩ l r
    let mirror := Plan.join ⟨0, .greater, 0⟩ r l
    Laws (.int 1) (.big 2) (.int 3)
      ∧ ∃ rows mirrored : List Tuple,
        (join.operator.answers [.start, .collect] join.closed .idle).1
            = [.ok .done, .ok (.rows rows)]
          ∧ (mirror.operator.answers [.start, .collect] mirror.closed .idle).1
            = [.ok .done, .ok (.rows mirrored)]
          ∧ rows.map (fun row => row.values.splitAt 1)
            = [([.int 1], [.int 2]), ([.int 1], [.int 3]), ([.big 2], [.int 3])]
          ∧ (mirrored.map fun row => (row.values.splitAt 1).swap).Perm
            (rows.map fun row => row.values.splitAt 1) := by
  intro l r join mirror
  obtain ⟨laws, joins⟩ := Comparison.consistent
  have meansL : l.Means _ := .rows (by simp [Schema.Admits, Value.fits])
  have meansR : r.Means _ := .rows (by simp [Schema.Admits, Value.fits])
  obtain ⟨rows, mirrored, given, given', are, same⟩ := joins ⟨0, .less, 0⟩ l r _ _ (by decide)
    meansL meansR join.closed mirror.closed .idle .idle join.idle_closed mirror.idle_closed
  exact ⟨laws _ _ _, rows, mirrored, given, given', are.trans (by decide), same⟩

end Tablespace
