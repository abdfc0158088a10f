import Tablespace.Operator.Aggregate
import Tablespace.Proofs.Operator.Stream

/-!
# What an aggregation gives

An aggregation over an operator that gives a list of rows takes them all into its
groups when it is started, and gives the rows that it makes of the groups
(`Operator.Gives.aggregate`). It keeps these rows and does not go back to the
operator below, not even when it is rewound.

An aggregation may fail, and then it fails when it is started, at the first row
that its groups do not take (`Operator.Gives.start_aggregate_error`). It can be
started again.
-/

namespace Tablespace

namespace Aggregation

/-- **What an aggregation is**, if it is possible: the column that is reduced
exists and is numeric or only counted, the column that makes the groups exists,
and the result has the latter before the former. -/
theorem ofSchema_eq_ok {fn : AggregateFn} {column : Nat} {group : Option Nat} {schema : Schema}
    {a : Aggregation} (h : ofSchema fn column group schema = .ok a) :
    ∃ c, schema.column? column = some c ∧ (c.type.isNumeric = true ∨ fn = .count) ∧
      (∀ position, group = some position → ∃ k, schema.column? position = some k) ∧
      a = ⟨fn, column, group, c.type.isNumeric,
        ⟨(group.bind schema.column?).toList ++ [⟨fn.render ++ "(" ++ c.name ++ ")", .bigint⟩]⟩⟩ := by
  unfold ofSchema at h
  split at h
  · cases h
  · rename_i c reduced
    split at h
    · cases h
    · rename_i possible
      have kind : c.type.isNumeric = true ∨ fn = .count := by
        cases numeric : c.type.isNumeric with
        | true => exact .inl rfl
        | false => exact .inr (by simpa [numeric] using possible)
      refine ⟨c, reduced, kind, ?_⟩
      cases group with
      | none =>
        cases h
        exact ⟨fun _ absurd => (nomatch absurd), rfl⟩
      | some position =>
        cases makes : schema.column? position with
        | none => simp only [makes] at h; cases h
        | some k =>
          simp only [makes] at h
          cases h
          refine ⟨fun _ same => ⟨k, Option.some.inj same ▸ makes⟩, ?_⟩
          rw [Option.bind_some, makes]
          rfl

/-- The row of one group. -/
theorem results_singleton (a : Aggregation) (key : Option Value) (r : Running) :
    a.results [(key, r)]
      = (Tuple.ofValues a.schema (key.toList ++ [.big (r.result a.fn)])).map fun row => [row] := by
  rw [results, List.mapM_cons]
  cases Tuple.ofValues a.schema (key.toList ++ [.big (r.result a.fn)]) <;> rfl

/-- Every row of a result is that of a group. -/
theorem mem_results {a : Aggregation} {groups : Groups} {results : List Tuple}
    (made : a.results groups = .ok results) {row : Tuple} (there : row ∈ results) :
    ∃ entry ∈ groups,
      Tuple.ofValues a.schema (entry.1.toList ++ [.big (entry.2.result a.fn)]) = .ok row := by
  unfold Aggregation.results at made
  induction groups generalizing results with
  | nil => cases made; cases there
  | cons entry groups ih =>
    rw [List.mapM_cons] at made
    cases first : Tuple.ofValues a.schema (entry.1.toList ++ [.big (entry.2.result a.fn)]) with
    | error cause => rw [first] at made; cases made
    | ok row' =>
      cases rest : groups.mapM
        (fun e => Tuple.ofValues a.schema (e.1.toList ++ [.big (e.2.result a.fn)])) with
      | error cause => rw [first, rest] at made; cases made
      | ok rows =>
        rw [first, rest] at made
        cases made
        obtain rfl | later := List.mem_cons.1 there
        · exact ⟨entry, List.mem_cons_self, first⟩
        · obtain ⟨entry', there', made⟩ := ih rest later
          exact ⟨entry', List.mem_cons_of_mem _ there', made⟩

end Aggregation

namespace Operator

open AggregateState

variable {σ : Type} {op : Operator σ} {a : Aggregation}

section Idle

variable {P : σ → Prop}

/-- **An aggregation that nobody is in the middle of starting**, over such an
operator. -/
def AggregateIdle (P : σ → Prop) (s : AggregateState σ) : Prop :=
  s.groups = none ∧ P s.below

/-- An aggregation goes on without the operator below. -/
theorem keepsIdle_aggregate : (op.aggregate a).KeepsIdle (AggregateIdle P) where
  hasNext := by
    refine Work.Keeps.own.bind fun own => ?_
    cases own.given <;> exact .pure _
  next := by
    refine Work.Keeps.own.bind fun own => ?_
    split
    · exact .bind (.setOwn fun _ h => h) fun _ => .pure _
    · exact .refuse _
  rewind := .setOwn fun _ h => h

end Idle

/-- **Where an aggregation stands**: so many of its rows have been given. -/
def AggregateStands (results : List Tuple) (P : σ → Prop) :
    Option (List Tuple) → AggregateState σ → Prop
  | none, s => AggregateIdle P s ∧ s.given = none
  | some rest, s => AggregateIdle P s ∧ s.rows = results
      ∧ ∃ given, s.given = some given ∧ rest = results.drop given

/-- A turn of the operator below. -/
theorem on_inBelow {α : Type} {x : Work σ α} {outcome : Except Halt α} {s : AggregateState σ}
    {t : σ} {e e' : Engine} (h : x.on (s.below, e) = (outcome, t, e')) :
    (inBelow x).on (s, e) = (outcome, { s with below := t }, e') :=
  Work.on_inPart h

namespace Gives

variable {all : List Tuple} {Idle : σ → Prop} {Stands : Option (List Tuple) → σ → Prop}
  (gives : op.Gives all Idle Stands)

include gives

/-- **All rows that are left below are taken into the groups.** -/
theorem on_gather (e : Engine) {rest : List Tuple} {fuel : Nat} {g groups : Groups}
    {s : AggregateState σ} (stands : Stands (some rest) s.below) (enough : rest.length < fuel)
    (grouped : rest.foldlM a.add g = .ok groups) :
    ∃ s', (op.gather a fuel g).on (s, e) = (.ok groups, s', e) ∧ Stands (some []) s'.below := by
  induction rest generalizing g s fuel with
  | nil =>
    obtain ⟨fuel, rfl⟩ := Nat.exists_eq_add_one_of_ne_zero (Nat.ne_of_gt enough)
    obtain ⟨below, asked, stands'⟩ := gives.more_nil e stands rfl
    cases grouped
    refine ⟨{ s with below := below }, ?_, stands'⟩
    rw [gather, Turn.on_bind_ok (on_inBelow asked)]
    rfl
  | cons row rest ih =>
    obtain ⟨fuel, rfl⟩ := Nat.exists_eq_add_one_of_ne_zero (Nat.ne_of_gt (Nat.zero_lt_of_lt enough))
    obtain ⟨below₁, asked, stands₁⟩ := gives.more_cons e stands
    obtain ⟨below₂, gave, stands₂⟩ := gives.give e stands₁
    rw [List.foldlM_cons] at grouped
    cases added : a.add g row with
    | error cause => rw [added] at grouped; cases grouped
    | ok g' =>
      rw [added] at grouped
      rw [gather, Turn.on_bind_ok (on_inBelow asked), if_pos rfl,
        Turn.on_bind_ok (on_inBelow gave), added, Turn.on_bind_ok (Turn.on_ofExcept_ok ..),
        Turn.on_bind_ok (Work.on_setOwn ..)]
      exact ih stands₂ (Nat.lt_of_succ_lt_succ enough) grouped

/-- **A row that the groups do not take** ends it. -/
theorem on_gather_error (e : Engine) {rest : List Tuple} {fuel : Nat} {g : Groups} {cause : Fault}
    {s : AggregateState σ} (stands : Stands (some rest) s.below) (enough : rest.length < fuel)
    (refused : rest.foldlM a.add g = .error cause) :
    ∃ s', (op.gather a fuel g).on (s, e) = (.error (.fault cause), s', e) ∧ Idle s'.below := by
  induction rest generalizing g s fuel with
  | nil => cases refused
  | cons row rest ih =>
    obtain ⟨fuel, rfl⟩ := Nat.exists_eq_add_one_of_ne_zero (Nat.ne_of_gt (Nat.zero_lt_of_lt enough))
    obtain ⟨below₁, asked, stands₁⟩ := gives.more_cons e stands
    obtain ⟨below₂, gave, stands₂⟩ := gives.give e stands₁
    rw [List.foldlM_cons] at refused
    rw [gather, Turn.on_bind_ok (on_inBelow asked), if_pos rfl, Turn.on_bind_ok (on_inBelow gave)]
    cases added : a.add g row with
    | error cause' =>
      rw [added] at refused
      cases refused
      refine ⟨{ s with below := below₂ }, ?_, gives.idle stands₂⟩
      rw [Turn.on_bind_error (Turn.on_ofExcept_error ..)]
    | ok g' =>
      rw [added] at refused
      rw [Turn.on_bind_ok (Turn.on_ofExcept_ok ..), Turn.on_bind_ok (Work.on_setOwn ..)]
      exact ih stands₂ (Nat.lt_of_succ_lt_succ enough) refused

/-- **An aggregation fails when it is started**, with the fault of the first row
that its groups do not take, and nobody is in the middle of starting it then. -/
theorem start_aggregate_error (e : Engine) {s : AggregateState σ} {cause : Fault}
    (idle : AggregateIdle Idle s) (refused : all.foldlM a.add [] = .error cause) :
    ∃ s', (op.aggregate a).start.on (s, e) = (.error (.fault cause), s', e)
      ∧ AggregateIdle Idle s' := by
  obtain ⟨below, started, stands⟩ := gives.start e idle.2
  have enough : all.length < op.bound below e + 1 := Nat.lt_succ_of_le (gives.all_le e stands)
  obtain ⟨s', gathered, idle'⟩ :=
    gives.on_gather_error (a := a) (s := { s with below := below, groups := some [] }) e stands
      enough refused
  refine ⟨{ s' with groups := none }, Work.on_mending_fault ?_, rfl, idle'⟩
  rw [Turn.on_bind_ok (Work.on_own _), idle.1, Option.isNone_none, if_pos rfl,
    Turn.on_bind_ok (on_inBelow started), Turn.on_bind_ok (Work.on_setOwn ..),
    Turn.on_bind_ok (Turn.on_get _)]
  dsimp only [Option.getD_some]
  rw [Turn.on_bind_error gathered]

/-- **An aggregation gives the rows of its groups.** -/
theorem aggregate {groups : Groups} {results : List Tuple}
    (grouped : all.foldlM a.add [] = .ok groups) (made : a.results groups = .ok results) :
    (op.aggregate a).Gives results (AggregateIdle Idle) (AggregateStands results Idle) where
  toKeepsIdle := keepsIdle_aggregate
  idle {pos s} stands := by
    cases pos with
    | none => exact stands.1
    | some rest => exact stands.1
  start {s} e idle := by
    obtain ⟨below, started, stands⟩ := gives.start e idle.2
    have enough : all.length < op.bound below e + 1 := Nat.lt_succ_of_le (gives.all_le e stands)
    obtain ⟨s', gathered, stands'⟩ :=
      gives.on_gather (a := a) (s := { s with below := below, groups := some [] }) e stands enough
        grouped
    refine ⟨{ s' with rows := results, given := some 0, groups := none }, Work.on_mending ?_,
      ⟨rfl, gives.idle stands'⟩, rfl, 0, rfl, rfl⟩
    rw [Turn.on_bind_ok (Work.on_own _), idle.1, Option.isNone_none, if_pos rfl,
      Turn.on_bind_ok (on_inBelow started), Turn.on_bind_ok (Work.on_setOwn ..),
      Turn.on_bind_ok (Turn.on_get _)]
    dsimp only [Option.getD_some]
    rw [Turn.on_bind_ok gathered, made, Turn.on_bind_ok (Turn.on_ofExcept_ok ..)]
    exact Work.on_setOwn ..
  more {pos s} e stands := by
    refine ⟨s, ?_, stands⟩
    rw [Operator.aggregate, Turn.on_bind_ok (Work.on_own _)]
    cases pos with
    | none =>
      dsimp only
      rw [stands.2]
      rfl
    | some rest =>
      obtain ⟨-, are, k, given, rfl⟩ := stands
      have more := lt_length_iff_drop results k
      dsimp only
      rw [given, are]
      dsimp only
      rw [more]
      rfl
  give {row rest s} e stands := by
    obtain ⟨idle, are, k, given, left⟩ := stands
    obtain ⟨here, after⟩ := getElem?_of_drop left
    refine ⟨{ s with given := some (k + 1) }, ?_, idle, are, k + 1, rfl, after⟩
    have found : (some k).bind (s.rows[·]?) = some row := by rw [are]; exact here
    rw [Operator.aggregate, Turn.on_bind_ok (Work.on_own _), given, found]
    rfl
  refuse {pos s} e stands none := by
    refine ⟨s, ?_, stands⟩
    rw [Operator.aggregate, Turn.on_bind_ok (Work.on_own _)]
    cases pos with
    | none =>
      dsimp only
      rw [stands.2]
      rfl
    | some rest =>
      obtain ⟨-, are, k, given, rfl⟩ := stands
      have found : (some k).bind (results[·]?) = Option.none :=
        List.getElem?_eq_none (List.drop_eq_nil_iff.1 none)
      dsimp only
      rw [given, are, found]
      rfl
  again {rest s} e stands := by
    obtain ⟨idle, are, k, given, -⟩ := stands
    refine ⟨{ s with given := some 0 }, ?_, idle, are, 0, rfl, rfl⟩
    rw [Operator.aggregate, Work.on_setOwn, given]
    rfl
  close idle := ⟨⟨rfl, gives.idle (gives.close idle.2)⟩, rfl⟩
  rest_le {rest s} e stands := by
    obtain ⟨-, are, k, -, rfl⟩ := stands
    show (results.drop k).length ≤ s.rows.length
    rw [are, List.length_drop]
    exact Nat.sub_le ..
  all_le {rest s} e stands := Nat.le_of_eq (congrArg List.length stands.2.1.symm)

end Gives

end Operator

end Tablespace
