import Mathlib.Data.List.Induction
import Tablespace.Proofs.Operator.Sum

/-!
# What each aggregate function makes of a group

What an aggregate function is to make of some numbers can be said without looking
at how they come in (`AggregateFn.Reduces`): the least of them, the greatest, their
sum, how many they are, or the sum divided by that. An aggregation keeps one value
and one count for each group, whatever the function, and the value means something
else for each of them (`Running.Holds`). It means nothing while the group has no
row; that is why the zero which it starts with is not taken for a least or a
greatest number.

So a row changes what is kept of its own group to what is to be kept of one number
more (`Running.Holds.add`), and the groups hold what they are to hold of all rows
taken so far (`Aggregation.Hold`). What comes out of it is what the aggregation is to
make of the rows (`Aggregation.summarizes_iff`): one row for each group, in the order
of their first rows, with what the function makes of the numbers of the group. Only a
sum can fail, or an average for its sum. `Operator.Gives.aggregate_reduces` says so of
the operator.
-/

namespace Tablespace

/-- **What an aggregate function makes of numbers**, of which there are some. An
average is rounded toward zero. -/
def AggregateFn.Reduces (fn : AggregateFn) (numbers : List Int) (n : Int) : Prop :=
  match fn with
  | .min => n ∈ numbers ∧ ∀ m ∈ numbers, n ≤ m
  | .max => n ∈ numbers ∧ ∀ m ∈ numbers, m ≤ n
  | .sum => n = numbers.sum
  | .avg => n = numbers.sum.tdiv numbers.length
  | .count => n = numbers.length

/-- **Whether an aggregate function adds numbers up**, and looks at the range. -/
def AggregateFn.Adds (fn : AggregateFn) : Prop :=
  fn = .sum ∨ fn = .avg

/-- It makes one thing of them. -/
theorem AggregateFn.Reduces.unique {fn : AggregateFn} {numbers : List Int} {n m : Int}
    (reduces : fn.Reduces numbers n) (reduces' : fn.Reduces numbers m) : n = m := by
  cases fn with
  | min => exact Int.le_antisymm (reduces.2 m reduces'.1) (reduces'.2 n reduces.1)
  | max => exact Int.le_antisymm (reduces'.2 n reduces.1) (reduces.2 m reduces'.1)
  | sum | avg | count => exact reduces.trans reduces'.symm

theorem inRange_toInt (n : Int64) : InRange n.toInt := by
  have least := n.le_toInt
  exact ⟨by rwa [Int64.toInt_minValue], n.toInt_le⟩

/-- A quotient is nearer to zero than what is divided. -/
theorem inRange_tdiv {n : Int} (inRange : InRange n) (count : Nat) : InRange (n.tdiv count) := by
  obtain ⟨least, most⟩ := inRange
  rw [InRange, Int64.toInt_minValue, Int64.toInt_maxValue] at *
  obtain positive | negative := Int.le_total 0 n
  · have lower : 0 ≤ n.tdiv count := Int.tdiv_nonneg positive (Int.natCast_nonneg count)
    have upper : n.tdiv count ≤ n := Int.tdiv_le_self _ positive
    omega
  · have lower : 0 ≤ (-n).tdiv count := Int.tdiv_nonneg (by omega) (Int.natCast_nonneg count)
    have upper : (-n).tdiv count ≤ -n := Int.tdiv_le_self _ (by omega)
    rw [Int.neg_tdiv] at lower upper
    omega

namespace Running

/-- **What is kept of numbers**: how many they are, and the least or the greatest
of them, if there are any, or their sum. -/
structure Holds (r : Running) (fn : AggregateFn) (numbers : List Int) : Prop where
  count : r.count = numbers.length
  extreme : fn = .min ∨ fn = .max → numbers ≠ [] → fn.Reduces numbers r.value.toInt
  sum : fn.Adds → r.value.toInt = numbers.sum

variable {r r' : Running} {fn : AggregateFn} {numbers : List Int} {v : Int64} {cause : Fault}

/-- Nothing is kept of a group that has seen no row. -/
theorem holds_none : none.Holds fn [] :=
  ⟨rfl, fun _ absurd => (absurd rfl).elim, fun _ => rfl⟩

/-- **A number that is added to a sum** is refused if the sum leaves the range. -/
theorem add_of_adds (adds : fn.Adds) : r.add fn v
    = if InRange (r.value.toInt + v.toInt)
      then .ok ⟨Int64.ofInt (r.value.toInt + v.toInt), r.count + 1⟩
      else .error (.overflow fn r.value v) := by
  have sum := addInRange?_eq r.value v
  obtain rfl | rfl := adds
  all_goals
    rw [add, nextValue, sum]
    by_cases inRange : InRange (r.value.toInt + v.toInt)
    · rw [if_pos inRange, if_pos inRange]
      rfl
    · rw [if_neg inRange, if_neg inRange]
      rfl

/-- **A number is refused** only if it is added to a sum, and the sum leaves the
range. -/
theorem add_error (refused : r.add fn v = .error cause) :
    fn.Adds ∧ ¬InRange (r.value.toInt + v.toInt) ∧ cause = .overflow fn r.value v := by
  have adds : fn.Adds := by
    cases fn with
    | sum => exact .inl rfl
    | avg => exact .inr rfl
    | min | max | count => cases refused
  rw [add_of_adds adds] at refused
  split at refused
  · cases refused
  · rename_i out
    cases refused
    exact ⟨adds, out, rfl⟩

/-- Every number that is taken counts. -/
theorem count_of_add (added : r.add fn v = .ok r') : r'.count = r.count + 1 := by
  rw [add] at added
  cases next : r.nextValue fn v with
  | error cause => rw [next] at added; cases added
  | ok value => rw [next] at added; cases added; rfl

/-- The sum with one number more. -/
theorem value_of_add (adds : fn.Adds) (added : r.add fn v = .ok r') :
    r'.value.toInt = r.value.toInt + v.toInt := by
  rw [add_of_adds adds] at added
  split at added
  · rename_i inRange
    cases added
    exact toInt_ofInt_of_inRange inRange
  · cases added

/-- **What is kept of one number more.** The first number is the least and the
greatest, whatever the value was before. -/
theorem Holds.add (holds : r.Holds fn numbers) (added : r.add fn v = .ok r') :
    r'.Holds fn (numbers ++ [v.toInt]) where
  count := by rw [count_of_add added, holds.count, List.length_append, List.length_singleton]
  extreme picks _ := by
    have first : r.count = 0 ↔ numbers = [] := by rw [holds.count, List.length_eq_zero_iff]
    have kept := holds.extreme picks
    obtain rfl | rfl := picks
    all_goals
      cases added
      simp only [AggregateFn.Reduces, first] at kept ⊢
      grind
  sum adds := by
    rw [value_of_add adds added, holds.sum adds, List.sum_append, List.sum_singleton]

/-- **A group with rows comes to what the function makes of its numbers.** A count
has to be in range. -/
theorem Holds.reduces (holds : r.Holds fn numbers) (some : numbers ≠ [])
    (counted : fn = .count → InRange numbers.length) :
    fn.Reduces numbers (r.result fn).toInt := by
  cases fn with
  | min => exact holds.extreme (.inl rfl) some
  | max => exact holds.extreme (.inr rfl) some
  | sum => exact holds.sum (.inl rfl)
  | avg =>
    rw [result, toInt_ofInt_of_inRange (inRange_tdiv (inRange_toInt _) _),
      holds.sum (.inr rfl), holds.count]
    rfl
  | count =>
    rw [result, ← Int64.ofInt_eq_ofNat, holds.count, toInt_ofInt_of_inRange (counted rfl)]
    rfl

/-- **What a group with rows comes to**, in words of 64 bits. -/
theorem Holds.exists_reduces (holds : r.Holds fn numbers) (some : numbers ≠ []) :
    ∃ n, fn.Reduces numbers n ∧ r.result fn = Int64.ofInt n := by
  cases fn with
  | min => exact ⟨_, holds.extreme (.inl rfl) some, (Int64.ofInt_toInt _).symm⟩
  | max => exact ⟨_, holds.extreme (.inr rfl) some, (Int64.ofInt_toInt _).symm⟩
  | sum => exact ⟨_, holds.sum (.inl rfl), (Int64.ofInt_toInt _).symm⟩
  | avg => exact ⟨_, rfl, by rw [result, holds.sum (.inr rfl), holds.count]⟩
  | count => exact ⟨_, rfl, by rw [result, ← Int64.ofInt_eq_ofNat, holds.count]⟩

end Running

/-! ## Groups -/

/-- Rows that stand under the same columns and are stored nowhere are told by their values. -/
theorem Tuple.eq_of_map_values {s : Schema} {rows rows' : List Tuple}
    (values : rows.map Tuple.values = rows'.map Tuple.values)
    (stand : ∀ row ∈ rows, row.schema = s ∧ row.record = none)
    (stand' : ∀ row ∈ rows', row.schema = s ∧ row.record = none) : rows = rows' := by
  induction rows generalizing rows' with
  | nil => exact (List.map_eq_nil_iff.1 values.symm).symm
  | cons row rows ih =>
    obtain ⟨row', rows', rfl, same, rest⟩ := List.map_eq_cons_iff.1 values.symm
    obtain ⟨⟨schema, record⟩, stand⟩ := List.forall_mem_cons.1 stand
    obtain ⟨⟨schema', record'⟩, stand'⟩ := List.forall_mem_cons.1 stand'
    have first : row = row' := by
      cases row
      cases row'
      simp_all
    rw [first, ih rest.symm stand stand']

namespace Aggregation

/-- **The numbers of a group**, in the order of its rows. -/
def numbers (a : Aggregation) (rows : List Tuple) (k : Option Value) : List Int :=
  (a.members rows k).map fun row => (a.number row).toInt

/-- **Groups that hold rows**: each of the groups of the rows holds its numbers, and no sum
has left the range. -/
structure Hold (a : Aggregation) (rows : List Tuple) (g : Groups) : Prop where
  keyed : ∃ r, g = .keyed (a.keys rows) r ∧ ∀ k ∈ a.keys rows, (r k).Holds a.fn (a.numbers rows k)
  bounded : a.fn.Adds → a.Bounded rows

/-- **What an aggregation is to make of rows**: one row for each group, in the order of the
first rows of the groups, with what the function makes of the numbers of the group. Only if
numbers are added up is anything asked of them: no sum may leave the range. -/
structure Summarizes (a : Aggregation) (rows results : List Tuple) : Prop where
  bounded : a.fn.Adds → a.Bounded rows
  /-- The rows are new, and stand under the columns of the result. -/
  stand : ∀ row ∈ results, row.schema = a.schema ∧ row.record = none
  values : ∃ n : Option Value → Int, (∀ k ∈ a.keys rows, a.fn.Reduces (a.numbers rows k) (n k))
    ∧ results.map Tuple.values
      = (a.keys rows).map fun k => k.toList ++ [.big (Int64.ofInt (n k))]

variable {a : Aggregation} {fn : AggregateFn} {column : Nat} {group : Option Nat} {schema : Schema}
  {rows : List Tuple} {row : Tuple} {k : Option Value} {g g' : Groups} {cause : Fault}

theorem numbers_concat :
    a.numbers (rows ++ [row]) (a.keyOf row)
      = a.numbers rows (a.keyOf row) ++ [(a.number row).toInt] := by
  rw [numbers, members_append, members_singleton, if_pos rfl, List.map_append]
  rfl

theorem numbers_concat_of_ne (other : a.keyOf row ≠ k) :
    a.numbers (rows ++ [row]) k = a.numbers rows k := by
  rw [numbers, members_append, members_singleton, if_neg other, List.append_nil]
  rfl

/-- A group that has been seen has rows. -/
theorem numbers_ne_nil (seen : k ∈ a.keys rows) : a.numbers rows k ≠ [] := by
  obtain ⟨row, there, own⟩ := exists_of_mem_keys seen
  intro none
  have member : row ∈ a.members rows k := List.mem_filter.2 ⟨there, decide_eq_true own⟩
  rw [List.map_eq_nil_iff.1 none] at member
  cases member

/-- No group comes twice. -/
theorem nodup_keys (rows : List Tuple) : (a.keys rows).Nodup := by
  induction rows using List.reverseRecOn with
  | nil => exact .nil
  | append_singleton rows row ih =>
    rw [keys_concat]
    split
    · exact ih
    · rename_i new
      refine List.nodup_append.2 ⟨ih, List.pairwise_singleton .., fun k seen last => ?_⟩
      rw [List.mem_singleton]
      rintro rfl rfl
      exact new seen

/-- A column that is not only counted holds a number in every row. -/
theorem number_of_admits (made : ofSchema fn column group schema = .ok a)
    (admits : schema.Admits row) (sums : fn ≠ .count) :
    (row.value? column).bind Value.asInt? = some (a.number row) := by
  obtain ⟨c, reduced, kind, -, is⟩ := ofSchema_eq_ok made
  have position : a.column = column := by rw [is]
  obtain ⟨value, at', here⟩ := Tuple.exists_value?_of_column? admits.length_eq.symm reduced
  have fits := (List.forall₂_iff_zip.1 admits).2 (List.mem_of_getElem? here)
  obtain ⟨n, integer⟩ := Value.isSome_asInt? fits (kind.resolve_right sums)
  rw [number, position, at', Option.bind_some, integer]
  rfl

theorem hold_nil : a.Hold [] [] :=
  ⟨⟨fun _ => .none, rfl, fun _ absurd => nomatch absurd⟩, fun _ => bounded_nil⟩

/-- **What is found of a group holds its numbers**, also if it has not been seen. -/
theorem Hold.find (hold : a.Hold rows g) (k : Option Value) :
    (g.find k).Holds a.fn (a.numbers rows k) := by
  obtain ⟨r, rfl, holds⟩ := hold.keyed
  rw [Groups.find_keyed]
  split
  · rename_i seen
    exact holds k seen
  · rename_i new
    rw [numbers, members_eq_nil_of_not_mem new]
    exact Running.holds_none

/-- **One row more is held** when its own group holds its number. -/
theorem Hold.put {x : Running} (hold : a.Hold rows g)
    (own : x.Holds a.fn (a.numbers (rows ++ [row]) (a.keyOf row))) :
    a.Hold (rows ++ [row]) (g.put (a.keyOf row) x) := by
  obtain ⟨⟨r, rfl, holds⟩, bounded⟩ := hold
  rw [Groups.put_keyed, ← keys_concat]
  have sum (adds : a.fn.Adds) : x.value.toInt = a.total (rows ++ [row]) (a.keyOf row) :=
    own.sum adds
  refine ⟨⟨_, rfl, fun k seen => ?_⟩,
    fun adds => bounded_concat.2 ⟨bounded adds, sum adds ▸ inRange_toInt x.value⟩⟩
  by_cases same : k = a.keyOf row
  · rw [same, Function.update_self]
    exact own
  · have before : k ∈ a.keys rows := by
      rw [keys_concat] at seen
      split at seen
      · exact seen
      · exact (List.mem_append.1 seen).resolve_right fun last => same (List.mem_singleton.1 last)
    rw [Function.update_of_ne same, numbers_concat_of_ne (Ne.symm same)]
    exact holds k before

/-- **A row that the schema admits** is held with those before, or the sum of its
group leaves the range. -/
theorem Hold.add (made : ofSchema fn column group schema = .ok a) (admits : schema.Admits row)
    (hold : a.Hold rows g) :
    (∃ g', a.add g row = .ok g' ∧ a.Hold (rows ++ [row]) g') ∨
      fn.Adds ∧ ¬InRange (a.total (rows ++ [row]) (a.keyOf row)) ∧
        ∃ sum n, a.add g row = .error (.overflow fn sum n) := by
  have function : a.fn = fn := by
    obtain ⟨c, -, -, -, is⟩ := ofSchema_eq_ok made
    rw [is]
  have holds := hold.find (a.keyOf row)
  rw [add_of_admits made admits]
  rw [function] at holds
  cases added : (g.find (a.keyOf row)).add fn (a.number row) with
  | ok r =>
    left
    have own := holds.add added
    rw [← numbers_concat, ← function] at own
    exact ⟨_, rfl, hold.put own⟩
  | error cause =>
    right
    obtain ⟨adds, out, rfl⟩ := Running.add_error added
    refine ⟨adds, ?_, _, _, rfl⟩
    rw [total_concat]
    rwa [holds.sum adds] at out

/-- **Rows that the schema admits are held** when they have been taken, or the sum of
some group leaves the range. -/
theorem Hold.foldlM (made : ofSchema fn column group schema = .ok a) {rest : List Tuple}
    (admitted : ∀ row ∈ rest, schema.Admits row) (hold : a.Hold rows g) :
    (∃ g', rest.foldlM a.add g = .ok g' ∧ a.Hold (rows ++ rest) g') ∨
      fn.Adds ∧ ¬a.Bounded (rows ++ rest) ∧
        ∃ sum n, rest.foldlM a.add g = .error (.overflow fn sum n) := by
  induction rest generalizing rows g with
  | nil =>
    left
    rw [List.append_nil]
    exact ⟨g, rfl, hold⟩
  | cons row rest ih =>
    have behind : rows ++ row :: rest = rows ++ [row] ++ rest := by
      rw [List.append_assoc, List.singleton_append]
    rw [List.foldlM_cons, behind]
    obtain ⟨g', added, hold'⟩ | ⟨adds, out, sum, n, refused⟩ :=
      hold.add made (admitted row List.mem_cons_self)
    · rw [added]
      exact ih (fun row' later => admitted row' (List.mem_cons_of_mem row later)) hold'
    · right
      rw [refused]
      exact ⟨adds, fun bounded => out (bounded _ (List.prefix_append ..) _), sum, n, rfl⟩

/-- A group that is held has a row. -/
theorem Hold.count_pos (hold : a.Hold rows g) : ∀ entry ∈ g, 0 < entry.2.count := by
  obtain ⟨r, rfl, holds⟩ := hold.keyed
  intro entry there
  obtain ⟨k, seen, rfl⟩ := List.mem_map.1 there
  rw [(holds k seen).count]
  exact List.length_pos_of_ne_nil (numbers_ne_nil seen)

/-- **What an aggregation makes of rows** that the schema admits is what it is to make of
them, and it makes nothing if a sum leaves the range. -/
theorem summarizes_iff (made : ofSchema fn column group schema = .ok a)
    (admitted : ∀ row ∈ rows, schema.Admits row) {results : List Tuple} :
    a.Summarizes rows results
      ↔ ∃ groups, rows.foldlM a.add [] = .ok groups ∧ a.results groups = .ok results := by
  have function : a.fn = fn := by
    obtain ⟨c, -, -, -, is⟩ := ofSchema_eq_ok made
    rw [is]
  obtain ⟨groups, grouped, hold⟩ | ⟨adds, out, sum, n, refused⟩ :=
    Hold.foldlM made admitted hold_nil
  · obtain ⟨⟨r, rfl, holds⟩, bounded⟩ := hold
    have seen : ∀ k ∈ a.keys rows, ∃ row, schema.Admits row ∧ a.keyOf row = k := by
      intro k there
      obtain ⟨row, among, own⟩ := exists_of_mem_keys there
      exact ⟨row, admitted row among, own⟩
    obtain ⟨results', are, values, stand⟩ := results_keyed made seen
    constructor
    · rintro ⟨-, stand', n, reduces, values'⟩
      refine ⟨_, grouped, are.trans (congrArg _ ?_)⟩
      refine Tuple.eq_of_map_values (values.trans (Eq.trans ?_ values'.symm)) stand stand'
      refine List.map_congr_left fun k there => ?_
      obtain ⟨m, reduces', is⟩ := (holds k there).exists_reduces (numbers_ne_nil there)
      rw [is, reduces'.unique (reduces k there)]
    · rintro ⟨groups, grouped', made'⟩
      obtain rfl := Except.ok.inj (grouped.symm.trans grouped')
      obtain rfl := Except.ok.inj (are.symm.trans made')
      have comes (k : Option Value) : ∃ n, k ∈ a.keys rows →
          a.fn.Reduces (a.numbers rows k) n ∧ (r k).result a.fn = Int64.ofInt n := by
        by_cases there : k ∈ a.keys rows
        · obtain ⟨n, is⟩ := (holds k there).exists_reduces (numbers_ne_nil there)
          exact ⟨n, fun _ => is⟩
        · exact ⟨0, fun absurd => (there absurd).elim⟩
      choose n is using comes
      refine ⟨bounded, stand, n, fun k there => (is k there).1, values.trans ?_⟩
      exact List.map_congr_left fun k there => by rw [(is k there).2]
  · refine iff_of_false (fun sums => out (sums.bounded (function ▸ adds))) ?_
    rintro ⟨groups, grouped, -⟩
    cases refused.symm.trans grouped

end Aggregation

namespace Operator.Gives

open Aggregation

variable {σ : Type} {op : Operator σ} {rows : List Tuple} {Idle : σ → Prop}
  {Stands : Option (List Tuple) → σ → Prop} {a : Aggregation} {fn : AggregateFn} {column : Nat}
  {group : Option Nat} {schema : Schema}

/-- **What an aggregation comes to**, over an operator that gives rows which a schema
admits. It can be started, unless it adds numbers up and the sum of some group leaves
the range of 64 bits at some row. Then it gives one row for each group, in the order
of their first rows: the value that makes the group, and what the function makes of
the numbers in its rows, where a count is right as long as it is in range. No average
is divided by zero, and the rows of the result can always be made. A column holds
numbers unless it is only counted. -/
theorem aggregate_reduces (gives : op.Gives rows Idle Stands)
    (made : Aggregation.ofSchema fn column group schema = .ok a)
    (admitted : ∀ row ∈ rows, schema.Admits row) :
    (fn ≠ .count → ∀ row ∈ rows, (row.value? column).bind Value.asInt? = some (a.number row)) ∧
    ((fn.Adds ∧ ¬a.Bounded rows ∧ ∃ sum n, ∀ (e : Engine) {s : AggregateState σ},
      AggregateIdle Idle s → ∃ s', (op.aggregate a).start.on (s, e)
        = (.error (.fault (.overflow fn sum n)), s', e) ∧ AggregateIdle Idle s') ∨
    ∃ groups results, rows.foldlM a.add [] = .ok groups ∧
      (∀ entry ∈ groups, 0 < entry.2.count) ∧ a.results groups = .ok results ∧
      (op.aggregate a).Gives results (AggregateIdle Idle) (AggregateStands results Idle) ∧
      (∀ row ∈ results, row.schema = a.schema) ∧ (a.keys rows).Nodup ∧
      ∃ value : Option Value → Int64,
        results.map Tuple.values = (a.keys rows).map (fun k => k.toList ++ [.big (value k)]) ∧
        ∀ k ∈ a.keys rows, (fn = .count → InRange (a.members rows k).length) →
          fn.Reduces (a.numbers rows k) (value k).toInt) := by
  have function : a.fn = fn := by
    obtain ⟨c, -, -, -, is⟩ := ofSchema_eq_ok made
    rw [is]
  refine ⟨fun sums row there => number_of_admits made (admitted row there) sums, ?_⟩
  obtain ⟨groups, grouped, hold⟩ | ⟨adds, out, sum, n, refused⟩ :=
    Hold.foldlM made admitted hold_nil
  · right
    have positive := hold.count_pos
    obtain ⟨r, rfl, holds⟩ := hold.keyed
    have seen : ∀ k ∈ a.keys rows, ∃ row, schema.Admits row ∧ a.keyOf row = k := by
      intro k there
      obtain ⟨row, among, own⟩ := exists_of_mem_keys there
      exact ⟨row, admitted row among, own⟩
    obtain ⟨results, are, values, stand⟩ := results_keyed made seen
    refine ⟨_, results, grouped, positive, are, gives.aggregate grouped are,
      fun row there => (stand row there).1,
      nodup_keys rows, fun k => (r k).result a.fn, values, fun k there counted => ?_⟩
    rw [← function] at counted ⊢
    refine (holds k there).reduces (numbers_ne_nil there) fun counts => ?_
    rw [numbers, List.length_map]
    exact counted counts
  · left
    exact ⟨adds, out, sum, n, fun e _ idle => gives.start_aggregate_error e idle refused⟩

end Operator.Gives

/-- The average of what each station has measured. -/
def Aggregation.degrees : Aggregation :=
  ⟨.avg, 1, some 0, true, ⟨[⟨"station", .bigint⟩, ⟨"avg(degrees)", .bigint⟩]⟩⟩

/-- What a station has measured. -/
def Tuple.measured (station degrees : Value) : Tuple :=
  ⟨⟨[⟨"station", .bigint⟩, ⟨"degrees", .bigint⟩]⟩, [station, degrees], none, rfl⟩

namespace Operator.Gives

open Tablespace.Aggregation Tablespace.Tuple

/-- The number five is two stations, one for each width of integer. The first has
measured seven degrees below zero and none, in integers of either width; the average
is rounded toward zero. -/
theorem aggregate_reduces_degrees :
    let rows := [measured (.int 5) (.int (-7)), measured (.big 5) (.big 4),
      measured (.int 5) (.big 0)]
    Aggregation.ofSchema .avg 1 (some 0) ⟨[⟨"station", .bigint⟩, ⟨"degrees", .bigint⟩]⟩
      = .ok degrees ∧
    (∀ row ∈ rows, Schema.Admits ⟨[⟨"station", .bigint⟩, ⟨"degrees", .bigint⟩]⟩ row) ∧
    ∃ results, ((ofRows rows).aggregate degrees).Gives results (AggregateIdle fun _ => True)
        (AggregateStands results fun _ => True) ∧
      results.map Tuple.values = [[.int 5, .big (-3)], [.big 5, .big 4]] := by
  intro rows
  have made : Aggregation.ofSchema .avg 1 (some 0)
      ⟨[⟨"station", .bigint⟩, ⟨"degrees", .bigint⟩]⟩ = .ok degrees := rfl
  have admitted : ∀ row ∈ rows,
      Schema.Admits ⟨[⟨"station", .bigint⟩, ⟨"degrees", .bigint⟩]⟩ row := by
    simp [rows, measured, Schema.Admits, Value.fits]
  refine ⟨made, admitted, ?_⟩
  obtain ⟨-, ⟨-, -, sum, n, fails⟩ | ⟨-, results, -, -, -, gives, -, -, value, values, reduced⟩⟩ :=
    aggregate_reduces (gives_ofRows rows) made admitted
  · obtain ⟨s', failed, -⟩ := fails .idle (s := ⟨[], none, none, none⟩) ⟨rfl, trivial⟩
    have ran : (((ofRows rows).aggregate degrees).start.on (⟨[], none, none, none⟩, .idle)).1
        = .ok () := by decide +kernel
    rw [failed] at ran
    cases ran
  · have keys : degrees.keys rows = [some (.int 5), some (.big 5)] := by decide +kernel
    rw [keys] at values reduced
    have first : (value (some (.int 5))).toInt = -3 :=
      (reduced _ (by decide) fun counts => by cases counts).trans (by decide +kernel)
    have second : (value (some (.big 5))).toInt = 4 :=
      (reduced _ (by decide) fun counts => by cases counts).trans (by decide +kernel)
    have first' : value (some (.int 5)) = -3 := Int64.toInt_inj.1 first
    have second' : value (some (.big 5)) = 4 := Int64.toInt_inj.1 second
    refine ⟨results, gives, values.trans ?_⟩
    rw [List.map_cons, List.map_singleton, first', second']
    rfl

end Operator.Gives

end Tablespace
