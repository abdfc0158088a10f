import Tablespace.Operator.Plan
import Tablespace.Proofs.Operator.Filter
import Tablespace.Proofs.Operator.Join
import Tablespace.Proofs.Operator.Reduction
import Tablespace.Session.Call

/-!
# What a plan means

A plan over rows at hand **means** a list of rows, which is defined without a word
about operators (`Plan.Means`): the rows themselves, those of them that satisfy a
predicate, the pairs that do, one row for each group. And there is what one expects of
a **stream** over a list of rows: so many of them have been given, or it is closed
(`Stream.answer`).

Whatever was done with the operator of a plan before, from the moment that it is
started it answers every method as a stream over the meaning of the plan
(`Plan.answers_of_means`) – in whatever order it is asked, whether there is a row,
given one, rewound, closed and started again. By induction on the plan its operator
gives the list (`Operator.Gives`).

To rewind a closed operator is left out: rows at hand are started by that, and an
aggregation stays closed.
-/

namespace Tablespace

/-! ## Streams -/

namespace Stream

/-- **What a stream over a list of rows answers**, and where it stands then: so many
rows have been given, or it is closed. -/
def answer (all : List Tuple) : Method → Option Nat → Except Halt Answer × Option Nat
  | .start, _ => (.ok .done, some 0)
  | .hasNext, pos => (.ok (.truth (pos.any (· < all.length))), pos)
  | .next, pos =>
    match pos, pos.bind (all[·]?) with
    | some given, some row => (.ok (.row row), some (given + 1))
    | _, _ => (.error (.fault .noSuchElement), pos)
  | .rewind, pos => (.ok .done, pos.map fun _ => 0)
  | .close, _ => (.ok .done, none)
  | .collect, pos => (.ok (.rows ((pos.map all.drop).getD [])), pos.map fun _ => all.length)

theorem answer_next {all : List Tuple} {given : Nat} {row : Tuple} (h : all[given]? = some row) :
    answer all .next (some given) = (.ok (.row row), some (given + 1)) := by
  have found : (some given).bind (all[·]?) = some row := h
  unfold answer
  dsimp only
  rw [found]

theorem answer_next_end {all : List Tuple} {pos : Option Nat}
    (none : pos.bind (all[·]?) = none) :
    answer all .next pos = (.error (.fault .noSuchElement), pos) := by
  unfold answer
  dsimp only
  rw [none]
  cases pos <;> rfl

/-- What it answers to methods, one after the other. -/
def answers (all : List Tuple) : List Method → Option Nat → List (Except Halt Answer)
  | [], _ => []
  | m :: ms, pos => (answer all m pos).1 :: answers all ms (answer all m pos).2

/-- **Methods of which none rewinds a closed stream.** -/
def Orderly (all : List Tuple) : List Method → Option Nat → Prop
  | [], _ => True
  | m :: ms, pos => (m = .rewind → pos ≠ none) ∧ Orderly all ms (answer all m pos).2

instance decidableOrderly (all : List Tuple) :
    (ms : List Method) → (pos : Option Nat) → Decidable (Orderly all ms pos)
  | [], _ => .isTrue trivial
  | m :: ms, pos =>
    have := decidableOrderly all ms (answer all m pos).2
    inferInstanceAs (Decidable ((m = .rewind → pos ≠ none) ∧ _))

end Stream

namespace Operator

variable {σ : Type}

/-- **What an operator answers to a method**, and the state that it leaves. -/
def answer (op : Operator σ) (m : Method) (s : σ) (e : Engine) : Except Halt Answer × σ × Engine :=
  let r := (op.run m).on ((#[], s), e)
  (r.1, r.2.1.2, r.2.2)

/-- What it answers to methods, one after the other, and the state at the end. -/
def answers (op : Operator σ) :
    List Method → σ → Engine → List (Except Halt Answer) × σ × Engine
  | [], s, e => ([], s, e)
  | m :: ms, s, e =>
    let first := op.answer m s e
    let rest := op.answers ms first.2.1 first.2.2
    (first.1 :: rest.1, rest.2)

variable {op : Operator σ} {all : List Tuple} {Idle : σ → Prop}
  {Stands : Option (List Tuple) → σ → Prop}

/-- A drain keeps what the methods keep. -/
theorem KeepsIdle.drain (keeps : op.KeepsIdle Idle) (fuel : Nat) :
    Work.Keeps (fun s : Array Tuple × σ => Idle s.2) (op.drain fuel) := by
  induction fuel with
  | zero => exact Work.Keeps.own.bind fun _ => .pure _
  | succ fuel ih =>
    refine keeps.hasNext.behind.bind fun more => ?_
    cases more with
    | false => exact Work.Keeps.own.bind fun _ => .pure _
    | true => exact keeps.next.behind.bind fun row => .bind (.setOwn fun _ h => h) fun _ => ih

namespace Gives

variable (gives : op.Gives all Idle Stands)

include gives

/-- **An operator that nobody is in the middle of starting stays so**, whatever
it is asked: when it is started, it is not left half way. -/
theorem idle_answer (m : Method) {s : σ} (e : Engine) (idle : Idle s) :
    Idle (op.answer m s e).2.1 := by
  cases m with
  | start =>
    obtain ⟨s', started, stands⟩ := gives.start e idle
    rw [answer, Operator.run, Turn.on_bind_ok (on_behind #[] started)]
    exact gives.idle stands
  | hasNext => exact (gives.hasNext.behind.bind fun _ => .pure _) (#[], s) e idle
  | next => exact (gives.next.behind.bind fun _ => .pure _) (#[], s) e idle
  | rewind => exact (gives.rewind.behind.bind fun _ => .pure _) (#[], s) e idle
  | close => exact gives.idle (gives.close idle)
  | collect =>
    have collects : Work.Keeps (fun s : Array Tuple × σ => Idle s.2) op.collect :=
      Work.Keeps.get.bind fun (own, e) => gives.toKeepsIdle.drain _
    exact (collects.bind fun _ => .pure _) (#[], s) e idle

theorem idle_answers (ms : List Method) {s : σ} (e : Engine) (idle : Idle s) :
    Idle (op.answers ms s e).2.1 := by
  induction ms generalizing s e with
  | nil => exact idle
  | cons m ms ih => exact ih _ (gives.idle_answer m e idle)

/-- **One method is answered as by a stream.** -/
theorem answer_eq (m : Method) {pos : Option Nat} {s : σ} (e : Engine)
    (stands : Stands (pos.map all.drop) s) (orderly : m = .rewind → pos ≠ none) :
    (op.answer m s e).1 = (Stream.answer all m pos).1
      ∧ Stands ((Stream.answer all m pos).2.map all.drop) (op.answer m s e).2.1 := by
  cases m with
  | start =>
    obtain ⟨s', started, stands'⟩ := gives.start e (gives.idle stands)
    rw [answer, Operator.run, Turn.on_bind_ok (on_behind #[] started)]
    exact ⟨rfl, stands'⟩
  | hasNext =>
    obtain ⟨s', asked, stands'⟩ := gives.more e stands
    rw [answer, Operator.run, Turn.on_bind_ok (on_behind #[] asked)]
    refine ⟨?_, stands'⟩
    cases pos with
    | none => rfl
    | some given => exact congrArg (Except.ok ∘ Answer.truth) (lt_length_iff_drop all given).symm
  | next =>
    cases row : pos.bind (all[·]?) with
    | none =>
      have none : (pos.map all.drop).getD [] = [] := by
        cases pos with
        | none => rfl
        | some given => exact List.drop_eq_nil_iff.2 (List.getElem?_eq_none_iff.1 row)
      obtain ⟨s', refused, stands'⟩ := gives.refuse e stands none
      rw [answer, Operator.run, Turn.on_bind_error (on_behind #[] refused),
        Stream.answer_next_end row]
      exact ⟨rfl, stands'⟩
    | some row' =>
      cases pos with
      | none => cases row
      | some given =>
        have left : all.drop given = row' :: all.drop (given + 1) :=
          (List.getElem?_eq_some_iff.1 row).elim fun lt is => is ▸ List.drop_eq_getElem_cons lt
        rw [Option.map_some, left] at stands
        obtain ⟨s', gave, stands'⟩ := gives.give e stands
        rw [answer, Operator.run, Turn.on_bind_ok (on_behind #[] gave), Stream.answer_next row]
        exact ⟨rfl, stands'⟩
  | rewind =>
    cases pos with
    | none => exact absurd rfl (orderly rfl)
    | some given =>
      obtain ⟨s', rewound, stands'⟩ := gives.again e stands
      rw [answer, Operator.run, Turn.on_bind_ok (on_behind #[] rewound)]
      exact ⟨rfl, stands'⟩
  | close => exact ⟨rfl, gives.close (gives.idle stands)⟩
  | collect =>
    obtain ⟨rows, s', collected, are, stands'⟩ := gives.on_collect e stands
    rw [answer, Operator.run, Turn.on_bind_ok collected]
    refine ⟨congrArg (Except.ok ∘ Answer.rows) are, ?_⟩
    cases pos with
    | none => exact stands'
    | some given =>
      have none : all.drop all.length = [] := List.drop_length
      dsimp only [Stream.answer, Option.map_some]
      rw [none]
      exact stands'

/-- **Methods are answered as by a stream**, one after the other. -/
theorem answers_eq {ms : List Method} {pos : Option Nat} {s : σ} (e : Engine)
    (stands : Stands (pos.map all.drop) s) (orderly : Stream.Orderly all ms pos) :
    (op.answers ms s e).1 = Stream.answers all ms pos := by
  induction ms generalizing pos s e with
  | nil => rfl
  | cons m ms ih =>
    obtain ⟨answered, stands'⟩ := gives.answer_eq m e stands orderly.1
    exact congrArg₂ List.cons answered (ih _ stands' orderly.2)

/-- From the moment that it is started an operator answers as a stream that was just
started, whatever was before. -/
theorem answers_start {ms : List Method} {s : σ} (e : Engine) (idle : Idle s)
    (orderly : Stream.Orderly all ms (some 0)) :
    (op.answers (.start :: ms) s e).1 = Stream.answers all (.start :: ms) none := by
  obtain ⟨s', started, stands⟩ := gives.start e idle
  have first : op.answer .start s e = (.ok .done, s', e) := by
    rw [answer, Operator.run, Turn.on_bind_ok (on_behind #[] started)]
    rfl
  rw [answers, first]
  exact congrArg (_ :: ·) (gives.answers_eq _ stands orderly)

end Gives

end Operator

/-! ## Plans -/

namespace Plan

/-- **What the rows of a plan are**, if it is one over rows at hand that conform to
the schemas declared for them, and no aggregation in it fails. -/
inductive Means : Plan → List Tuple → Prop
  /-- The rows themselves. -/
  | rows {schema : Schema} {list : List Tuple} (admitted : ∀ row ∈ list, schema.Admits row) :
    Means (rows schema list) list
  /-- The rows that satisfy the predicate, in order. -/
  | filter {predicate : Predicate} {below : Plan} {all : List Tuple} (means : Means below all) :
    Means (filter predicate below) (all.filter predicate.holds)
  /-- For each left row, for each right row, the two as one if they satisfy the
  predicate. -/
  | join {predicate : JoinPredicate} {left right : Plan} {ls rs : List Tuple}
    (meansL : Means left ls) (meansR : Means right rs) :
    Means (join predicate left right)
      (predicate.pairs (left.schema.append right.schema) ls rs)
  /-- One row for each group. -/
  | aggregate {fn : AggregateFn} {column : Nat} {group : Option Nat} {a : Aggregation}
    {below : Plan} {all results : List Tuple} (means : Means below all)
    (made : Aggregation.ofSchema fn column group below.schema = .ok a)
    (sums : a.Summarizes all results) : Means (aggregate a below) results

/-- **A plan that nobody is in the middle of starting.** -/
def Idle : (p : Plan) → p.State → Prop
  | rows _ _ => fun _ => True
  | scan _ => fun _ => True
  | filter _ below => fun s : Option Tuple × below.State => below.Idle s.2
  | join _ left right => Operator.JoinIdle left.Idle right.Idle
  | aggregate _ below => Operator.AggregateIdle below.Idle

/-- **Rows at hand that stand under the schemas that are declared for them.** -/
def Uniform : Plan → Prop
  | rows schema list => ∀ row ∈ list, row.schema = schema
  | filter _ below => below.Uniform
  | scan _ | join _ _ _ | aggregate _ _ => True

variable {p : Plan} {all : List Tuple}

/-- Nobody is in the middle of starting a closed plan. -/
theorem idle_closed (p : Plan) : p.Idle p.closed := by
  induction p with
  | rows => trivial
  | scan => trivial
  | filter _ _ ih => exact ih
  | join _ _ _ ihL ihR => exact ⟨rfl, ihL, ihR⟩
  | aggregate _ _ ih => exact ⟨rfl, ih⟩

namespace Means

/-- **The schema of a plan admits every row that it means**, -/
theorem admits (means : p.Means all) : ∀ row ∈ all, p.schema.Admits row := by
  induction means with
  | rows admitted => exact admitted
  | filter _ ih => exact fun row there => ih row (List.mem_filter.1 there).1
  | join _ _ ihL ihR =>
    intro row there
    obtain ⟨a, ha, b, hb, rfl⟩ := JoinPredicate.mem_pairs there
    exact (Tuple.append_of_admits (ihL a ha) (ihR b hb)).2.1
  | aggregate _ made sums ih =>
    intro row there
    obtain ⟨groups, -, results⟩ := (Aggregation.summarizes_iff made ih).1 sums
    obtain ⟨entry, -, is⟩ := Aggregation.mem_results results there
    exact (Tuple.admits_of_ofValues is).2

/-- **and the rows stand under it**, if those at hand do. -/
theorem schema_eq (means : p.Means all) (uniform : p.Uniform) :
    ∀ row ∈ all, row.schema = p.schema := by
  induction means with
  | rows _ => exact uniform
  | filter _ ih => exact fun row there => ih uniform row (List.mem_filter.1 there).1
  | join meansL meansR _ _ =>
    intro row there
    obtain ⟨a, ha, b, hb, rfl⟩ := JoinPredicate.mem_pairs there
    exact (Tuple.append_of_admits (meansL.admits a ha) (meansR.admits b hb)).2.2
  | aggregate _ _ sums _ => exact fun row there => (sums.stand row there).1

/-- **The operator of a plan gives what the plan means.** -/
theorem gives (means : p.Means all) :
    ∃ Stands, p.operator.Gives all p.Idle Stands := by
  induction means with
  | rows => exact ⟨_, Operator.gives_ofRows _⟩
  | filter _ ih =>
    obtain ⟨Stands, gives⟩ := ih
    exact ⟨_, gives.filter⟩
  | join meansL meansR ihL ihR =>
    obtain ⟨StandsL, left⟩ := ihL
    obtain ⟨StandsR, right⟩ := ihR
    exact ⟨_, Operator.Gives.join left right fun a ha b hb =>
      (Tuple.append_of_admits (meansL.admits a ha) (meansR.admits b hb)).1⟩
  | aggregate means made sums ih =>
    obtain ⟨Stands, gives⟩ := ih
    obtain ⟨groups, grouped, results⟩ := (Aggregation.summarizes_iff made means.admits).1 sums
    exact ⟨_, gives.aggregate grouped results⟩

end Means

/-- **A plan computes what it means.** -/
theorem answers_of_means (means : p.Means all) {s : p.State} (idle : p.Idle s) (e : Engine)
    (earlier : List Method) {later : List Method} (orderly : Stream.Orderly all later (some 0)) :
    let before := p.operator.answers earlier s e
    (p.operator.answers (.start :: later) before.2.1 before.2.2).1
        = Stream.answers all (.start :: later) none
      ∧ (∀ row ∈ all, p.schema.Admits row)
      ∧ (p.Uniform → ∀ row ∈ all, row.schema = p.schema) := by
  intro before
  obtain ⟨Stands, gives⟩ := means.gives
  refine ⟨?_, means.admits, means.schema_eq⟩
  obtain ⟨s', started, stands⟩ := gives.start before.2.2 (gives.idle_answers earlier e idle)
  have first : p.operator.answer .start before.2.1 before.2.2 = (.ok .done, s', before.2.2) := by
    rw [Operator.answer, Operator.run, Turn.on_bind_ok (Operator.on_behind #[] started)]
    rfl
  rw [Operator.answers, first]
  exact congrArg (_ :: ·) (gives.answers_eq _ stands orderly)

/-- A row of one number. -/
def number (n : Int32) : Tuple :=
  ⟨⟨[⟨"n", .integer⟩]⟩, [.int n], none, List.length_singleton⟩

/-- How often each number occurs. -/
def counting : Aggregation :=
  ⟨.count, 0, some 0, true, ⟨[⟨"n", .integer⟩, ⟨"count(n)", .bigint⟩]⟩⟩

/-- The numbers from two on that two lists have in common, in the order of the
first, with how often they occur in the second. -/
def common : Plan :=
  join ⟨0, .equal, 0⟩
    (filter ⟨0, .atLeast, .int 2⟩ (rows ⟨[⟨"n", .integer⟩]⟩ [number 3, number 1, number 2]))
    (aggregate counting
      (rows ⟨[⟨"n", .integer⟩]⟩ [number 1, number 2, number 3, number 2]))

/-- What they mean: the 3, which occurs once, and the 2, which occurs twice. -/
def commonRows : List Tuple :=
  let counted (n : Int32) (times : Int64) : Tuple :=
    ⟨⟨[⟨"n", .integer⟩, ⟨"n", .integer⟩, ⟨"count(n)", .bigint⟩]⟩,
      [.int n, .int n, .big times], none, rfl⟩
  [counted 3 1, counted 2 2]

theorem means_common : common.Means commonRows := by
  have admitted : ∀ row ∈ [number 1, number 2, number 3, number 2],
      Schema.Admits ⟨[⟨"n", .integer⟩]⟩ row := by simp [number, Schema.Admits, Value.fits]
  have made : Aggregation.ofSchema .count 0 (some 0) ⟨[⟨"n", .integer⟩]⟩ = .ok counting := rfl
  exact .join (.filter (.rows (by simp [number, Schema.Admits, Value.fits])))
    (.aggregate (.rows admitted) made
      ((Aggregation.summarizes_iff made admitted).2 ⟨_, rfl, rfl⟩))

/-- A join that was left in the middle is started, gives a row, is rewound, gives
both, and is closed. -/
theorem answers_of_means_common :
    let before := common.operator.answers [.start, .next] common.closed .idle
    (common.operator.answers [.start, .next, .rewind, .hasNext, .collect, .next, .close, .hasNext]
        before.2.1 before.2.2).1
      = [.ok .done, .ok (.row (commonRows.head (by decide))), .ok .done, .ok (.truth true),
        .ok (.rows commonRows), .error (.fault .noSuchElement), .ok .done, .ok (.truth false)] :=
  (answers_of_means means_common common.idle_closed _ [.start, .next]
    (by decide)).1

end Plan

end Tablespace
