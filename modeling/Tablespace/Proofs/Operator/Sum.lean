import Mathlib.Algebra.Order.BigOperators.Group.List
import Mathlib.Algebra.Order.Ring.Int
import Tablespace.Proofs.Operator.Groups

/-!
# What a sum comes to

The sum of a group is kept as an integer of 64 bits, and every row is added to it
with a look at the range. So the aggregation fails just if some group leaves the
range at some row (`Aggregation.Bounded`) – not if its total does. A total that is
out of range is found in any order of the rows, because it is itself the last sum
of its group. But a total in range may be passed through sums that are not, and
whether it is depends on the order. It is passed through none in any order just
if the group stays in range when all its gains come first, and when all its losses
do.

`Operator.Gives.sum_bounded` says all this of the operator, with the fault it
fails with and the rows it gives.
-/

namespace Tablespace

/-- **Whether a number is an integer of 64 bits.** -/
def InRange (n : Int) : Prop :=
  Int64.minValue.toInt ≤ n ∧ n ≤ Int64.maxValue.toInt

instance (n : Int) : Decidable (InRange n) :=
  inferInstanceAs (Decidable (_ ∧ _))

theorem toInt_ofInt_of_inRange {n : Int} (h : InRange n) : (Int64.ofInt n).toInt = n := by
  obtain ⟨lower, upper⟩ := h
  rw [Int64.toInt_minValue] at lower
  rw [Int64.toInt_maxValue] at upper
  exact Int64.toInt_ofInt_of_le lower (by omega)

theorem inRange_zero : InRange 0 := by
  decide

/-- Numbers are added if their sum is in range. -/
theorem addInRange?_eq (x y : Int64) : addInRange? x y
    = if InRange (x.toInt + y.toInt) then some (Int64.ofInt (x.toInt + y.toInt)) else none :=
  rfl

namespace Aggregation

variable (a : Aggregation)

/-- The sum of what each row of a group counts for. -/
def sumOf (f : Int → Int) (rows : List Tuple) (k : Option Value) : Int :=
  ((a.members rows k).map fun row => f (a.number row).toInt).sum

/-- **The total of a group**, whatever its size. -/
def total : List Tuple → Option Value → Int :=
  a.sumOf fun n => n

/-- **What a group gains**: the total of its numbers that are positive. -/
def gains : List Tuple → Option Value → Int :=
  a.sumOf fun n => max n 0

/-- **What a group loses**: the total of its numbers that are negative. -/
def losses : List Tuple → Option Value → Int :=
  a.sumOf fun n => min n 0

/-- **Rows whose sums stay in range**: none of their groups leaves it, up to any
of them. -/
def Bounded (rows : List Tuple) : Prop :=
  ∀ before, before <+: rows → ∀ k, InRange (a.total before k)

/-- **The sums of groups**, with the number of their rows. -/
def tally (rows : List Tuple) : Groups :=
  .keyed (a.keys rows) fun k => ⟨Int64.ofInt (a.total rows k), (a.members rows k).length⟩

variable {a} {f : Int → Int} {rows rows' : List Tuple} {row : Tuple} {k : Option Value}
  {column : Nat} {group : Option Nat} {schema : Schema}

/-! ## Sums of groups -/

theorem sumOf_append (later : List Tuple) :
    a.sumOf f (rows ++ later) k = a.sumOf f rows k + a.sumOf f later k := by
  rw [sumOf, members_append, List.map_append, List.sum_append]
  rfl

theorem sumOf_singleton :
    a.sumOf f [row] k = if a.keyOf row = k then f (a.number row).toInt else 0 := by
  rw [sumOf, members_singleton]
  split
  · exact List.sum_singleton
  · rfl

/-- The order of the rows does not matter. -/
theorem sumOf_perm (perm : rows'.Perm rows) : a.sumOf f rows' k = a.sumOf f rows k :=
  ((perm.filter _).map _).sum_eq

theorem sumOf_mono {g : Int → Int} (le : ∀ n, f n ≤ g n) : a.sumOf f rows k ≤ a.sumOf g rows k :=
  List.sum_le_sum fun _ _ => le _

theorem sumOf_zero : a.sumOf (fun _ => 0) rows k = 0 :=
  List.sum_map_zero

/-- A row adds its number to the total of its own group, -/
theorem total_concat :
    a.total (rows ++ [row]) (a.keyOf row) = a.total rows (a.keyOf row) + (a.number row).toInt := by
  rw [total, sumOf_append, sumOf_singleton, if_pos rfl]

/-- and to no other. -/
theorem total_concat_of_ne (other : a.keyOf row ≠ k) :
    a.total (rows ++ [row]) k = a.total rows k := by
  rw [total, sumOf_append, sumOf_singleton, if_neg other, Int.add_zero]

/-- A total is what is gained and what is lost. -/
theorem total_eq : a.total rows k = a.gains rows k + a.losses rows k := by
  rw [total, gains, losses, sumOf, sumOf, sumOf, ← List.sum_map_add]
  refine congrArg List.sum (List.map_congr_left fun row _ => ?_)
  omega

/-- The total of some of the rows, chosen by their numbers. -/
theorem total_filter (q : Int → Bool) :
    a.total (rows.filter fun row => q (a.number row).toInt) k
      = a.sumOf (fun n => if q n then n else 0) rows k := by
  induction rows with
  | nil => rfl
  | cons row rows ih =>
    have split : row :: rows = [row] ++ rows := rfl
    rw [split, List.filter_append, total, sumOf_append, sumOf_append, ← ih, total, sumOf_singleton,
      List.filter_singleton]
    congr 1
    cases q (a.number row).toInt with
    | true => exact sumOf_singleton
    | false => exact (ite_self 0).symm

/-! ## Sums that stay in range -/

theorem bounded_nil : a.Bounded [] := by
  intro before none k
  rw [List.prefix_nil.1 none]
  exact inRange_zero

/-- Rows stay in range up to the last if they do before it and its own group does
with it. -/
theorem bounded_concat :
    a.Bounded (rows ++ [row])
      ↔ a.Bounded rows ∧ InRange (a.total (rows ++ [row]) (a.keyOf row)) := by
  constructor
  · intro bounded
    exact ⟨fun before early => bounded before (early.trans (List.prefix_append ..)),
      bounded _ List.prefix_rfl _⟩
  · rintro ⟨bounded, last⟩ before early k
    obtain rfl | early := List.prefix_concat_iff.1 early
    · by_cases own : a.keyOf row = k
      · exact own ▸ last
      · rw [total_concat_of_ne own]
        exact bounded rows List.prefix_rfl k
    · exact bounded before early k

/-- **A total out of range is found in any order.** -/
theorem not_bounded_of_total (out : ¬InRange (a.total rows k)) (perm : rows'.Perm rows) :
    ¬a.Bounded rows' := by
  intro bounded
  refine out ?_
  have last := bounded rows' List.prefix_rfl k
  rwa [total, sumOf_perm perm] at last

/-- A group that stays in range with all gains first, and with all losses first,
stays there in any order. -/
theorem bounded_of_gains (perm : rows'.Perm rows)
    (inRange : ∀ k, InRange (a.gains rows k) ∧ InRange (a.losses rows k)) : a.Bounded rows' := by
  rintro before ⟨after, rfl⟩ k
  obtain ⟨⟨-, most⟩, least, -⟩ := inRange k
  rw [gains, ← sumOf_perm perm, sumOf_append] at most
  rw [losses, ← sumOf_perm perm, sumOf_append] at least
  -- what comes after gains no less than nothing and loses no less than nothing
  have gained : 0 ≤ a.sumOf (fun n => max n 0) after k :=
    sumOf_zero.symm.trans_le (sumOf_mono fun n => le_max_right n 0)
  have lost : a.sumOf (fun n => min n 0) after k ≤ 0 :=
    (sumOf_mono fun n => min_le_right n 0).trans_eq sumOf_zero
  have gained' : 0 ≤ a.sumOf (fun n => max n 0) before k :=
    sumOf_zero.symm.trans_le (sumOf_mono fun n => le_max_right n 0)
  have lost' : a.sumOf (fun n => min n 0) before k ≤ 0 :=
    (sumOf_mono fun n => min_le_right n 0).trans_eq sumOf_zero
  rw [total_eq, gains, losses]
  constructor <;> omega

/-- Rows chosen by their numbers can come first. -/
theorem inRange_of_bounded (all : ∀ rows', rows'.Perm rows → a.Bounded rows') (q : Int → Bool) :
    InRange (a.sumOf (fun n => if q n then n else 0) rows k) := by
  rw [← total_filter]
  exact all _ (List.filter_append_perm (fun row => q (a.number row).toInt) rows) _
    (List.prefix_append ..) k

/-- **Rows stay in range in any order** just if all that each group gains is in
range, and all that it loses. -/
theorem bounded_perm_iff :
    (∀ rows', rows'.Perm rows → a.Bounded rows')
      ↔ ∀ k, InRange (a.gains rows k) ∧ InRange (a.losses rows k) := by
  constructor
  · intro all k
    have gains : (fun n : Int => max n 0) = fun n => if decide (0 < n) then n else 0 := by
      funext n
      grind
    have losses : (fun n : Int => min n 0) = fun n => if decide (n < 0) then n else 0 := by
      funext n
      grind
    rw [Aggregation.gains, Aggregation.losses, gains, losses]
    exact ⟨inRange_of_bounded all _, inRange_of_bounded all _⟩
  · intro inRange rows' perm
    exact bounded_of_gains perm inRange

/-! ## Rows taken one by one -/

/-- What is kept of a group is its sum and the number of its rows, which are both
zero for a group that has not been seen. -/
theorem find_tally : (a.tally rows).find k
    = ⟨Int64.ofInt (a.total rows k), (a.members rows k).length⟩ := by
  rw [tally, Groups.find_keyed]
  split
  · rfl
  · rename_i new
    rw [total, sumOf, members_eq_nil_of_not_mem new]
    rfl

/-- The sums with one more row. -/
theorem put_tally : (a.tally rows).put (a.keyOf row)
    ⟨Int64.ofInt (a.total (rows ++ [row]) (a.keyOf row)), (a.members rows (a.keyOf row)).length + 1⟩
      = a.tally (rows ++ [row]) := by
  rw [tally, Groups.put_keyed, tally, keys_concat]
  congr 1
  funext k
  by_cases own : k = a.keyOf row
  · rw [own, Function.update_self, members_append, members_singleton, if_pos rfl,
      List.length_append, List.length_singleton]
  · rw [Function.update_of_ne own, total_concat_of_ne (Ne.symm own), members_append,
      members_singleton, if_neg (Ne.symm own), List.append_nil]

/-- **A row is added to the sum of its group**, unless the group leaves the
range. -/
theorem add_tally (made : ofSchema .sum column group schema = .ok a)
    (admits : schema.Admits row) (bounded : a.Bounded rows) :
    a.add (a.tally rows) row
      = if InRange (a.total (rows ++ [row]) (a.keyOf row)) then .ok (a.tally (rows ++ [row]))
        else .error (.overflow .sum (Int64.ofInt (a.total rows (a.keyOf row))) (a.number row)) := by
  have here := toInt_ofInt_of_inRange (bounded rows List.prefix_rfl (a.keyOf row))
  rw [add_of_admits made admits, find_tally, Running.add, Running.nextValue]
  dsimp only
  rw [addInRange?_eq, here, ← total_concat, ← put_tally]
  by_cases inRange : InRange (a.total (rows ++ [row]) (a.keyOf row))
  · rw [if_pos inRange, if_pos inRange]
    rfl
  · rw [if_neg inRange, if_neg inRange]
    rfl

/-- **Rows that stay in range are all added.** If they do not, the first row with
which its group leaves the range is refused. -/
theorem foldlM_tally (made : ofSchema .sum column group schema = .ok a) {rest : List Tuple}
    (admitted : ∀ row ∈ rest, schema.Admits row) (bounded : a.Bounded rows) :
    (a.Bounded (rows ++ rest) ∧ rest.foldlM a.add (a.tally rows) = .ok (a.tally (rows ++ rest))) ∨
      ∃ before row after, rest = before ++ row :: after ∧ a.Bounded (rows ++ before) ∧
        ¬InRange (a.total (rows ++ before ++ [row]) (a.keyOf row)) ∧
        rest.foldlM a.add (a.tally rows) = .error (.overflow .sum
          (Int64.ofInt (a.total (rows ++ before) (a.keyOf row))) (a.number row)) := by
  induction rest generalizing rows with
  | nil =>
    left
    rw [List.append_nil]
    exact ⟨bounded, rfl⟩
  | cons row rest ih =>
    have added := add_tally made (admitted row List.mem_cons_self) bounded
    rw [List.foldlM_cons, added]
    by_cases inRange : InRange (a.total (rows ++ [row]) (a.keyOf row))
    · rw [if_pos inRange]
      obtain ⟨all, taken⟩ | ⟨before, row', after, rfl, stays, leaves, refused⟩ :=
        ih (fun row later => admitted row (List.mem_cons_of_mem _ later))
          (bounded_concat.2 ⟨bounded, inRange⟩)
      · left
        rw [List.append_assoc, List.singleton_append] at all taken
        exact ⟨all, taken⟩
      · right
        have behind : rows ++ [row] ++ before = rows ++ row :: before := by
          rw [List.append_assoc, List.singleton_append]
        rw [behind] at stays leaves refused
        exact ⟨row :: before, row', after, rfl, stays, leaves, refused⟩
    · right
      rw [if_neg inRange]
      exact ⟨[], row, rest, rfl, by rwa [List.append_nil], by rwa [List.append_nil],
        by rw [List.append_nil]; rfl⟩

end Aggregation

namespace Operator.Gives

open Aggregation

variable {σ : Type} {op : Operator σ} {rows : List Tuple} {Idle : σ → Prop}
  {Stands : Option (List Tuple) → σ → Prop} {a : Aggregation} {column : Nat} {group : Option Nat}
  {schema : Schema}

/-- **What a sum comes to**, over an operator that gives rows which a schema
admits. It can be started just if no group leaves the range of 64 bits at any of
its rows; if one does, it fails at the first such row, with the sum before it and
its number. If it can be started it gives one row for each group, in the order of
their first rows, with the total of the group.

The totals do not depend on the order of the rows, nor does it which groups there
are. Whether it can be started does. It can in no order if a total is out of
range; and it can in any order just if, for each group, all that it gains is in
range and all that it loses. -/
theorem sum_bounded (gives : op.Gives rows Idle Stands)
    (made : Aggregation.ofSchema .sum column group schema = .ok a)
    (admitted : ∀ row ∈ rows, schema.Admits row) :
    (∀ (e : Engine) {s : AggregateState σ}, AggregateIdle Idle s →
      ∃ outcome s', (op.aggregate a).start.on (s, e) = (outcome, s', e) ∧ AggregateIdle Idle s' ∧
        (outcome = .ok () ↔ a.Bounded rows) ∧
        (¬a.Bounded rows → ∃ before row after, rows = before ++ row :: after ∧ a.Bounded before ∧
          ¬InRange (a.total (before ++ [row]) (a.keyOf row)) ∧
          outcome = .error (.fault (.overflow .sum
            (Int64.ofInt (a.total before (a.keyOf row))) (a.number row))))) ∧
    (a.Bounded rows → ∃ results,
      (op.aggregate a).Gives results (AggregateIdle Idle) (AggregateStands results Idle) ∧
        results.map Tuple.values
          = (a.keys rows).map (fun k => k.toList ++ [.big (Int64.ofInt (a.total rows k))]) ∧
        (∀ row ∈ results, row.schema = a.schema) ∧
        ∀ k, (Int64.ofInt (a.total rows k)).toInt = a.total rows k) ∧
    (∀ rows' : List Tuple, rows'.Perm rows → ∀ k,
      a.total rows' k = a.total rows k ∧ (k ∈ a.keys rows' ↔ k ∈ a.keys rows) ∧
        (¬InRange (a.total rows k) → ¬a.Bounded rows')) ∧
    ((∀ rows', rows'.Perm rows → a.Bounded rows')
      ↔ ∀ k, InRange (a.gains rows k) ∧ InRange (a.losses rows k)) := by
  have taken := foldlM_tally made admitted bounded_nil
  have none : a.tally [] = [] := rfl
  rw [List.nil_append, none] at taken
  have function : a.fn = .sum := by
    obtain ⟨c, -, -, -, is⟩ := ofSchema_eq_ok made
    rw [is]
  have results (grouped : rows.foldlM a.add [] = .ok (a.tally rows)) : ∃ results,
      (op.aggregate a).Gives results (AggregateIdle Idle) (AggregateStands results Idle) ∧
        results.map Tuple.values
          = (a.keys rows).map (fun k => k.toList ++ [.big (Int64.ofInt (a.total rows k))]) ∧
        ∀ row ∈ results, row.schema = a.schema := by
    have seen : ∀ k ∈ a.keys rows, ∃ row, schema.Admits row ∧ a.keyOf row = k := by
      intro k there
      obtain ⟨row, among, own⟩ := exists_of_mem_keys there
      exact ⟨row, admitted row among, own⟩
    obtain ⟨results, are, values, stand⟩ := results_keyed made seen
    refine ⟨results, gives.aggregate grouped are, ?_, fun row there => (stand row there).1⟩
    rw [values, function]
    rfl
  refine ⟨?_, ?_, ?_, bounded_perm_iff⟩
  · intro e s idle
    obtain ⟨bounded, grouped⟩ | ⟨before, row, after, split, stays, leaves, refused⟩ := taken
    · obtain ⟨results, gives', -⟩ := results grouped
      obtain ⟨s', started, stands⟩ := gives'.start e idle
      exact ⟨_, s', started, gives'.idle stands, iff_of_true rfl bounded,
        fun unbounded => absurd bounded unbounded⟩
    · obtain ⟨s', started, idle'⟩ := gives.start_aggregate_error e idle refused
      have unbounded : ¬a.Bounded rows := by
        intro bounded
        refine leaves (bounded _ ?_ _)
        rw [split]
        exact ⟨after, by simp⟩
      exact ⟨_, s', started, idle', iff_of_false (fun absurd => nomatch absurd) unbounded,
        fun _ => ⟨before, row, after, split, stays, leaves, rfl⟩⟩
  · intro bounded
    obtain ⟨-, grouped⟩ | ⟨before, row, after, split, -, leaves, -⟩ := taken
    · obtain ⟨results, gives', values, schemas⟩ := results grouped
      exact ⟨results, gives', values, schemas,
        fun k => toInt_ofInt_of_inRange (bounded rows List.prefix_rfl k)⟩
    · exact absurd (bounded _ (split ▸ ⟨after, by simp⟩) _) leaves
  · intro rows' perm k
    refine ⟨sumOf_perm perm, ?_, fun out => not_bounded_of_total out perm⟩
    rw [keys, keys, List.mem_eraseDups, List.mem_eraseDups]
    exact (perm.map _).mem_iff

end Operator.Gives

/-- The sum of what each shop has taken. -/
def Aggregation.takings : Aggregation :=
  ⟨.sum, 1, some 0, true, ⟨[⟨"shop", .integer⟩, ⟨"sum(taken)", .bigint⟩]⟩⟩

/-- What a shop has taken, or given back. -/
def Tuple.taken (shop : Int32) (n : Int64) : Tuple :=
  ⟨⟨[⟨"shop", .integer⟩, ⟨"taken", .bigint⟩]⟩, [.int shop, .big n], none, rfl⟩

namespace Operator.Gives

open Tablespace.Aggregation Tablespace.Tuple

/-- A shop takes the most there is; another one takes five; the first gives one
back and takes it again. -/
theorem sum_bounded_takings :
    let rows := [taken 1 Int64.maxValue, taken 2 5, taken 1 (-1), taken 1 1]
    Aggregation.ofSchema .sum 1 (some 0) ⟨[⟨"shop", .integer⟩, ⟨"taken", .bigint⟩]⟩ = .ok takings ∧
    takings.Bounded rows ∧ ¬(∀ rows', rows'.Perm rows → takings.Bounded rows') ∧
    ∃ results Stands, ((ofRows rows).aggregate takings).Gives results
        (AggregateIdle fun _ => True) Stands ∧
      results.map Tuple.values = [[.int 1, .big Int64.maxValue], [.int 2, .big 5]] := by
  intro rows
  have made : Aggregation.ofSchema .sum 1 (some 0)
      ⟨[⟨"shop", .integer⟩, ⟨"taken", .bigint⟩]⟩ = .ok takings := rfl
  have admitted : ∀ row ∈ rows, Schema.Admits ⟨[⟨"shop", .integer⟩, ⟨"taken", .bigint⟩]⟩ row := by
    simp [rows, taken, Schema.Admits, Value.fits]
  obtain ⟨outcomes, totals, -, orders⟩ := sum_bounded (gives_ofRows rows) made admitted
  obtain ⟨outcome, s', started, -, succeeds, -⟩ :=
    outcomes .idle (s := ⟨[], none, none, none⟩) ⟨rfl, trivial⟩
  have ran : (((ofRows rows).aggregate takings).start.on (⟨[], none, none, none⟩, .idle)).1
      = .ok () := by decide +kernel
  rw [started] at ran
  have bounded : takings.Bounded rows := succeeds.1 ran
  obtain ⟨results, gives, values, -⟩ := totals bounded
  refine ⟨made, bounded, fun all => ?_, results, _, gives, values.trans ?_⟩
  · have gained := (orders.1 all (some (.int 1))).1
    revert gained
    decide
  · decide

/-- **A total in range may be out of reach.** The total of the most there is, one,
and minus one is in range, and they cannot be summed in this order. With the last
two exchanged they can. -/
theorem sum_refused_in_range :
    let rows := [taken 1 Int64.maxValue, taken 1 1, taken 1 (-1)]
    let rows' := [taken 1 Int64.maxValue, taken 1 (-1), taken 1 1]
    (∀ k, InRange (takings.total rows k)) ∧ rows'.Perm rows ∧
    (((ofRows rows).aggregate takings).start.on (⟨[], none, none, none⟩, .idle)).1
      = .error (.fault (.overflow .sum Int64.maxValue 1)) ∧
    (((ofRows rows').aggregate takings).start.on (⟨[], none, none, none⟩, .idle)).1 = .ok () := by
  intro rows rows'
  refine ⟨fun k => ?_, .cons _ (.swap ..), by decide +kernel, by decide +kernel⟩
  by_cases own : k = some (.int 1)
  · subst own
    decide +kernel
  · have one : takings.keys rows = [some (.int 1)] := by decide +kernel
    have none : takings.members rows k = [] :=
      members_eq_nil_of_not_mem (by rw [one, List.mem_singleton]; exact own)
    rw [total, sumOf, none]
    exact inRange_zero

end Operator.Gives

end Tablespace
