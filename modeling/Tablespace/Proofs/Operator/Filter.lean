import Tablespace.Operator.Filter
import Tablespace.Proofs.Operator.Stream

/-!
# What a filter gives

A filter over an operator that gives a list of rows gives those of them that
satisfy its predicate, in the same order (`Operator.Gives.filter`). What is left
of them is the row that it has found and not yet given, and then what the
predicate leaves of the rows that are left below.
-/

namespace Tablespace

namespace Operator

variable {σ : Type} {op : Operator σ} {all : List Tuple} {Idle : σ → Prop}
  {Stands : Option (List Tuple) → σ → Prop} {p : Predicate}

/-- **Where a filter stands**: the row ahead is the first of the rows that are
left. -/
def FilterStands (p : Predicate) (Stands : Option (List Tuple) → σ → Prop) :
    Option (List Tuple) → Option Tuple × σ → Prop
  | none, s => s.1 = none ∧ Stands none s.2
  | some rest, s => ∃ below, Stands (some below) s.2 ∧ rest = s.1.toList ++ below.filter p.holds

section Idle

variable {P : σ → Prop}

/-- Seeking a row keeps what the methods of the operator keep. -/
theorem keeps_seek (hasNext : Work.Keeps P op.hasNext) (next : Work.Keeps P op.next) (fuel : Nat) :
    Work.Keeps (fun s : Option Tuple × σ => P s.2) (op.seek p fuel) := by
  induction fuel with
  | zero => exact .pure _
  | succ fuel ih =>
    refine hasNext.behind.bind fun more => ?_
    cases more with
    | false => exact .pure _
    | true =>
      refine next.behind.bind fun row => ?_
      by_cases holds : p.holds row = true
      · rw [if_pos holds]
        exact .bind (.setOwn fun _ h => h) fun _ => .pure _
      · rw [if_neg holds]
        exact ih

theorem keeps_look (hasNext : Work.Keeps P op.hasNext) (next : Work.Keeps P op.next) :
    Work.Keeps (fun s : Option Tuple × σ => P s.2) (op.look p) := by
  refine Work.Keeps.get.bind fun ((ahead, own), e) => ?_
  dsimp only
  split
  · exact .pure _
  · exact keeps_seek hasNext next _

/-- A filter is as idle as the operator below. -/
theorem KeepsIdle.filter (keeps : op.KeepsIdle P) :
    (op.filter p).KeepsIdle fun s => P s.2 where
  hasNext := keeps_look keeps.hasNext keeps.next
  next := by
    refine (keeps_look keeps.hasNext keeps.next).bind fun _ => Work.Keeps.own.bind fun own => ?_
    cases own.1 with
    | none => exact .refuse _
    | some row => exact .bind (.setOwn fun _ h => h) fun _ => .pure _
  rewind := .bind (.setOwn fun _ h => h) fun _ => keeps.rewind.behind

end Idle

namespace Gives

variable (gives : op.Gives all Idle Stands)

include gives

/-- **Seeking finds the first row that satisfies the predicate**, if one is
left. -/
theorem on_seek (e : Engine) {below : List Tuple} {fuel : Nat} {s : σ}
    (stands : Stands (some below) s) (enough : below.length < fuel) :
    ∃ s', (op.seek p fuel).on ((none, s), e) = (.ok !(below.filter p.holds).isEmpty, s', e)
      ∧ FilterStands p Stands (some (below.filter p.holds)) s'
      ∧ s'.1 = (below.filter p.holds).head? := by
  induction below generalizing s fuel with
  | nil =>
    obtain ⟨fuel, rfl⟩ := Nat.exists_eq_add_one_of_ne_zero (Nat.ne_of_gt enough)
    obtain ⟨s', asked, stands'⟩ := gives.more_nil e stands rfl
    refine ⟨(none, s'), ?_, ⟨[], stands', rfl⟩, rfl⟩
    rw [seek, Turn.on_bind_ok (on_behind none asked)]
    rfl
  | cons row below ih =>
    obtain ⟨fuel, rfl⟩ := Nat.exists_eq_add_one_of_ne_zero (Nat.ne_of_gt (Nat.zero_lt_of_lt enough))
    obtain ⟨s₁, asked, stands₁⟩ := gives.more_cons e stands
    obtain ⟨s₂, gave, stands₂⟩ := gives.give e stands₁
    rw [seek, Turn.on_bind_ok (on_behind none asked), if_pos rfl,
      Turn.on_bind_ok (on_behind none gave)]
    by_cases holds : p.holds row = true
    · rw [if_pos holds, List.filter_cons_of_pos holds]
      exact ⟨(some row, s₂), rfl, ⟨below, stands₂, rfl⟩, rfl⟩
    · rw [if_neg holds, List.filter_cons_of_neg holds]
      exact ih stands₂ (Nat.lt_of_succ_lt_succ enough)

/-- **A filter that looks ahead** stands where it stood, and has the first of the
rows that are left at hand. -/
theorem on_look (e : Engine) {pos : Option (List Tuple)} {s : Option Tuple × σ}
    (stands : FilterStands p Stands pos s) :
    ∃ s', (op.look p).on (s, e) = (.ok !(pos.getD []).isEmpty, s', e)
      ∧ FilterStands p Stands pos s' ∧ s'.1 = (pos.getD []).head? := by
  obtain ⟨ahead, below⟩ := s
  have start : (op.look p).on ((ahead, below), e)
      = (if ahead.isSome then pure true else op.seek p (op.bound below e + 1)).on
        ((ahead, below), e) := Turn.on_bind_ok (Turn.on_get _)
  rw [start]
  cases pos with
  | none =>
    obtain ⟨rfl, stands⟩ := stands
    obtain ⟨s', asked, stands'⟩ := gives.more_nil e stands rfl
    refine ⟨(none, s'), ?_, ⟨rfl, stands'⟩, rfl⟩
    show (op.seek p (op.bound below e + 1)).on ((none, below), e) = _
    rw [seek, Turn.on_bind_ok (on_behind none asked)]
    rfl
  | some rest =>
    obtain ⟨left, stands, rfl⟩ := stands
    cases ahead with
    | some row => exact ⟨_, rfl, ⟨left, stands, rfl⟩, rfl⟩
    | none =>
      obtain ⟨s', found, stands'⟩ :=
        gives.on_seek e stands (Nat.lt_succ_of_le (gives.rest_le e stands))
      exact ⟨s', found, stands'⟩

/-- **A filter gives the rows that satisfy its predicate.** -/
theorem filter :
    (op.filter p).Gives (all.filter p.holds) (fun s => Idle s.2) (FilterStands p Stands) where
  toKeepsIdle := gives.toKeepsIdle.filter
  idle {pos s} stands := by
    cases pos with
    | none => exact gives.idle stands.2
    | some rest =>
      obtain ⟨below, stands, -⟩ := stands
      exact gives.idle stands
  start e idle := by
    obtain ⟨s', started, stands⟩ := gives.start e idle
    exact ⟨(none, s'), on_behind none started, all, stands, rfl⟩
  more e stands := by
    obtain ⟨s', looked, stands', -⟩ := gives.on_look e stands
    exact ⟨s', looked, stands'⟩
  give {row rest s} e stands := by
    obtain ⟨⟨ahead, own⟩, looked, ⟨below, stands', are⟩, rfl⟩ := gives.on_look e stands
    refine ⟨(none, own), ?_, below, stands', (List.cons.inj are).2⟩
    rw [Operator.filter, Turn.on_bind_ok looked]
    rfl
  refuse {pos s} e stands none := by
    obtain ⟨⟨ahead, own⟩, looked, stands', rfl⟩ := gives.on_look e stands
    refine ⟨_, ?_, stands'⟩
    rw [Operator.filter, Turn.on_bind_ok looked, none]
    rfl
  again e stands := by
    obtain ⟨below, stands, -⟩ := stands
    obtain ⟨s', rewound, stands'⟩ := gives.again e stands
    exact ⟨(none, s'), on_behind none rewound, all, stands', rfl⟩
  close idle := ⟨rfl, gives.close idle⟩
  rest_le {rest s} e stands := by
    obtain ⟨below, stands, rfl⟩ := stands
    have least := gives.rest_le e stands
    have fewer := List.length_filter_le p.holds below
    have one : s.1.toList.length ≤ 1 := by cases s.1 <;> simp
    show _ ≤ op.bound s.2 e + 1
    rw [List.length_append]
    omega
  all_le {rest s} e stands := by
    obtain ⟨below, stands, -⟩ := stands
    calc (all.filter p.holds).length ≤ all.length := List.length_filter_le ..
      _ ≤ op.bound s.2 e := gives.all_le e stands
      _ ≤ (op.filter p).bound s e := Nat.le_succ _

end Gives

end Operator

end Tablespace
