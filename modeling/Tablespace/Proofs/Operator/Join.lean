import Mathlib.Data.List.Forall2
import Tablespace.Operator.Join
import Tablespace.Proofs.Operator.Stream

/-!
# What a join gives

A join over operators that give lists of rows gives the pairs of rows that
satisfy its predicate (`JoinPredicate.pairs`): for each left row in order, for
each right row in order (`Operator.Gives.join`). What is left of them is the pair
that it has found and not yet given, the pairs of the left row in hand with the
right rows that are left, and those of the left rows that are left with all right
rows – for each of them the right operator is rewound.
-/

namespace Tablespace

/-! ## Rows that schemas admit -/

/-- **Whether a schema admits a row**: there is a value for each column, and it
fits it. -/
def Schema.Admits (schema : Schema) (row : Tuple) : Prop :=
  List.Forall₂ (fun c v => v.fits c.type = true) schema.columns row.values

namespace Tuple

/-- Values that fit the columns of a schema make a row of it. -/
theorem ofValues_of_forall₂ {schema : Schema} {values : List Value}
    (fits : List.Forall₂ (fun c v => v.fits c.type = true) schema.columns values) :
    ofValues schema values = .ok ⟨schema, values, none, fits.length_eq.symm⟩ := by
  have unfit : (schema.columns.zip values).find? (fun cv => !cv.2.fits cv.1.type) = none := by
    rw [List.find?_eq_none]
    intro cv there
    rw [(List.forall₂_iff_zip.1 fits).2 there]
    decide
  rw [ofValues, dif_pos fits.length_eq.symm, unfit]

/-- A row that was made of values stands under the schema, which admits it. -/
theorem admits_of_ofValues {schema : Schema} {values : List Value} {t : Tuple}
    (made : ofValues schema values = .ok t) : t.schema = schema ∧ schema.Admits t := by
  unfold ofValues at made
  split at made
  · rename_i length
    split at made
    · cases made
    · rename_i unfit
      cases made
      refine ⟨rfl, List.forall₂_iff_zip.2 ⟨length.symm, fun there => ?_⟩⟩
      simpa using List.find?_eq_none.1 unfit _ there
  · cases made

/-- **Two rows as one**, under a schema that has as many columns as both have
values. -/
def beside (a b : Tuple) (schema : Schema) : Tuple :=
  if h : (a.values ++ b.values).length = schema.columns.length then
    ⟨schema, a.values ++ b.values, none, h⟩
  else .empty

/-- Rows that two schemas admit can be put beside each other. -/
theorem append_of_admits {a b : Tuple} {left right : Schema} (admitted : left.Admits a)
    (admitted' : right.Admits b) :
    a.append b (left.append right) = .ok (a.beside b (left.append right))
      ∧ (left.append right).Admits (a.beside b (left.append right))
      ∧ (a.beside b (left.append right)).schema = left.append right := by
  have fits : List.Forall₂ (fun c v => v.fits c.type = true) (left.append right).columns
      (a.values ++ b.values) := List.rel_append admitted admitted'
  have made := ofValues_of_forall₂ fits
  have is : a.beside b (left.append right) = ⟨_, _, none, fits.length_eq.symm⟩ :=
    dif_pos fits.length_eq.symm
  rw [is]
  exact ⟨made, fits, rfl⟩

end Tuple

/-- **The pairs of rows that satisfy a predicate**, as rows of a schema. -/
def JoinPredicate.pairs (p : JoinPredicate) (schema : Schema) (left right : List Tuple) :
    List Tuple :=
  left.flatMap fun a => (right.filter (p.holds a)).map fun b => a.beside b schema

namespace JoinPredicate

variable {p : JoinPredicate} {schema : Schema} {a b : Tuple} {left right : List Tuple}

theorem pairs_nil_left : p.pairs schema [] right = [] :=
  rfl

theorem pairs_nil_right : p.pairs schema left [] = [] := by
  simp [pairs]

theorem pairs_cons_left :
    p.pairs schema (a :: left) right = p.pairs schema [a] right ++ p.pairs schema left right := by
  simp [pairs]

theorem pairs_cons_of_pos (holds : p.holds a b = true) :
    p.pairs schema [a] (b :: right) = a.beside b schema :: p.pairs schema [a] right := by
  simp [pairs, holds]

theorem pairs_cons_of_neg (fails : ¬p.holds a b = true) :
    p.pairs schema [a] (b :: right) = p.pairs schema [a] right := by
  simp [pairs, fails]

theorem mem_pairs {row : Tuple} (there : row ∈ p.pairs schema left right) :
    ∃ a ∈ left, ∃ b ∈ right, row = a.beside b schema := by
  obtain ⟨a, ha, there⟩ := List.mem_flatMap.1 there
  obtain ⟨b, hb, rfl⟩ := List.mem_map.1 there
  exact ⟨a, ha, b, (List.mem_filter.1 hb).1, rfl⟩

/-- There are no more pairs than left rows times right rows. -/
theorem length_pairs_le : (p.pairs schema left right).length ≤ left.length * right.length := by
  induction left with
  | nil => rw [pairs_nil_left]; exact Nat.zero_le _
  | cons a left ih =>
    have one : (p.pairs schema [a] right).length ≤ right.length := by
      rw [pairs, List.flatMap_singleton, List.length_map]
      exact List.length_filter_le ..
    rw [pairs_cons_left, List.length_append, List.length_cons, Nat.succ_mul]
    omega

end JoinPredicate

namespace Operator

open JoinState

variable {σ τ : Type} {l : Operator σ} {r : Operator τ} {p : JoinPredicate} {schema : Schema}

section Idle

variable {P : σ → Prop} {Q : τ → Prop}

/-- **A join that nobody is in the middle of starting**, over two such
operators. -/
def JoinIdle (P : σ → Prop) (Q : τ → Prop) (s : JoinState σ τ) : Prop :=
  s.leftStarted = false ∧ P s.left ∧ Q s.right

theorem keeps_inLeft {α : Type} {x : Work σ α} (keeps : Work.Keeps P x) :
    Work.Keeps (JoinIdle P Q) (inLeft x) :=
  keeps.inPart (fun _ h => h.2.1) fun _ _ h kept => ⟨h.1, kept, h.2.2⟩

theorem keeps_inRight {α : Type} {x : Work τ α} (keeps : Work.Keeps Q x) :
    Work.Keeps (JoinIdle P Q) (inRight x) :=
  keeps.inPart (fun _ h => h.2.2) fun _ _ h kept => ⟨h.1, h.2.1, kept⟩

variable (left : l.KeepsIdle P) (right : r.KeepsIdle Q)

include left right

/-- Going through pairs keeps what the methods of the operators keep. -/
theorem keeps_pair (fuel : Nat) : Work.Keeps (JoinIdle P Q) (l.pair p schema r fuel) := by
  induction fuel with
  | zero => exact .pure _
  | succ fuel ih =>
    refine Work.Keeps.own.bind fun own => ?_
    cases own.outer with
    | none =>
      refine (keeps_inLeft left.hasNext).bind fun more => ?_
      cases more with
      | false => exact .pure _
      | true =>
        exact (keeps_inLeft left.next).bind fun row => .bind (.setOwn fun _ h => h) fun _ => ih
    | some outer =>
      refine (keeps_inRight right.hasNext).bind fun more => ?_
      cases more with
      | false =>
        exact (keeps_inRight right.rewind).bind fun _ => .bind (.setOwn fun _ h => h) fun _ => ih
      | true =>
        refine (keeps_inRight right.next).bind fun inner => ?_
        by_cases holds : p.holds outer inner = true
        · rw [if_pos holds]
          exact .bind (.ofExcept _) fun _ => .pure _
        · rw [if_neg holds]
          exact ih

theorem keeps_lookPair : Work.Keeps (JoinIdle P Q) (l.lookPair p schema r) := by
  refine Work.Keeps.get.bind fun (own, e) => ?_
  dsimp only
  split
  · exact .pure _
  · exact (keeps_pair left right _).bind fun _ => .bind (.setOwn fun _ h => h) fun _ => .pure _

/-- A join is as idle as the operators below. -/
theorem KeepsIdle.join : (l.join p schema r).KeepsIdle (JoinIdle P Q) where
  hasNext := keeps_lookPair left right
  next := by
    refine (keeps_lookPair left right).bind fun _ => Work.Keeps.own.bind fun own => ?_
    cases own.ahead with
    | none => exact .refuse _
    | some row => exact .bind (.setOwn fun _ h => h) fun _ => .pure _
  rewind := .bind (.setOwn fun _ h => h) fun _ =>
    (keeps_inLeft left.rewind).bind fun _ => keeps_inRight right.rewind

end Idle

/-! ## Where a join stands -/

/-- A turn of the left operator. -/
theorem on_inLeft {α : Type} {x : Work σ α} {outcome : Except Halt α} {s : JoinState σ τ} {t : σ}
    {e e' : Engine} (h : x.on (s.left, e) = (outcome, t, e')) :
    (inLeft x).on (s, e) = (outcome, { s with left := t }, e') :=
  Work.on_inPart h

/-- A turn of the right operator. -/
theorem on_inRight {α : Type} {x : Work τ α} {outcome : Except Halt α} {s : JoinState σ τ} {t : τ}
    {e e' : Engine} (h : x.on (s.right, e) = (outcome, t, e')) :
    (inRight x).on (s, e) = (outcome, { s with right := t }, e') :=
  Work.on_inPart h

section Stands

variable {all below : List Tuple} {IdleL : σ → Prop} {IdleR : τ → Prop}
  {StandsL : Option (List Tuple) → σ → Prop} {StandsR : Option (List Tuple) → τ → Prop}

variable (p schema all below StandsL StandsR) in
/-- **A join in the middle of its pairs**: so many left rows and so many right
rows are left. -/
structure Pairing (ls rs : List Tuple) (s : JoinState σ τ) : Prop where
  idle : s.leftStarted = false
  left : StandsL (some ls) s.left
  right : StandsR (some rs) s.right
  /-- The left rows in hand and to come are such that were given, -/
  left_sub : ∀ a ∈ s.outer.toList ++ ls, a ∈ all
  /-- and the right rows are the last of those that are given for each of them. -/
  right_sub : rs <:+ below
  /-- When no left row is in hand, all right rows are to come. -/
  whole : s.outer = none → rs = below

variable (p schema below) in
/-- The pairs to come of a left row that may be in hand and the right rows that
are left, and then those of the left rows that are left. -/
def pairsLeft (outer : Option Tuple) (ls rs : List Tuple) : List Tuple :=
  p.pairs schema outer.toList rs ++ p.pairs schema ls below

/-- A left row is taken in hand. -/
theorem pairsLeft_cons {a : Tuple} {ls : List Tuple} :
    pairsLeft p schema below none (a :: ls) below = pairsLeft p schema below (some a) ls below :=
  JoinPredicate.pairs_cons_left

/-- The left row in hand has no right row to come. -/
theorem pairsLeft_nil {a : Tuple} {ls : List Tuple} :
    pairsLeft p schema below (some a) ls [] = pairsLeft p schema below none ls below :=
  congrArg (· ++ _) JoinPredicate.pairs_nil_right

/-- The first right row to come matches the left row in hand. -/
theorem pairsLeft_of_pos {a b : Tuple} {ls rs : List Tuple} (holds : p.holds a b = true) :
    pairsLeft p schema below (some a) ls (b :: rs)
      = a.beside b schema :: pairsLeft p schema below (some a) ls rs :=
  congrArg (· ++ _) (JoinPredicate.pairs_cons_of_pos holds)

/-- The first right row to come does not match. -/
theorem pairsLeft_of_neg {a b : Tuple} {ls rs : List Tuple} (fails : ¬p.holds a b = true) :
    pairsLeft p schema below (some a) ls (b :: rs) = pairsLeft p schema below (some a) ls rs :=
  congrArg (· ++ _) (JoinPredicate.pairs_cons_of_neg fails)

variable (p schema all below StandsL StandsR) in
/-- **Where a join stands**: the row ahead is the first of the rows that are
left. -/
def JoinStands : Option (List Tuple) → JoinState σ τ → Prop
  | none, s => s.outer = none ∧ s.ahead = none ∧ s.leftStarted = false ∧ StandsL none s.left
      ∧ StandsR none s.right
  | some rest, s => ∃ ls rs, Pairing all below StandsL StandsR ls rs s
      ∧ rest = s.ahead.toList ++ pairsLeft p schema below s.outer ls rs

variable (left : l.Gives all IdleL StandsL) (right : r.Gives below IdleR StandsR)

include left

/-- There is no pair to come when no left row is. -/
theorem on_pair_end (e : Engine) {pos : Option (List Tuple)} (fuel : Nat) (ahead : Option Tuple)
    (started : Bool) {sl : σ} (sr : τ) (stands : StandsL pos sl) (none : pos.getD [] = []) :
    ∃ sl', (l.pair p schema r (fuel + 1)).on (⟨.none, ahead, started, sl, sr⟩, e)
        = (.ok .none, ⟨.none, ahead, started, sl', sr⟩, e) ∧ StandsL pos sl' := by
  obtain ⟨sl', asked, stands'⟩ := left.more_nil e stands none
  refine ⟨sl', ?_, stands'⟩
  rw [pair, Turn.on_bind_ok (Work.on_own _)]
  exact Turn.on_bind_ok (on_inLeft (s := ⟨.none, ahead, started, sl, sr⟩) asked)

include right

/-- **Going through pairs finds the first that satisfies the predicate**, if one
is left. -/
theorem on_pair (fits : ∀ a ∈ all, ∀ b ∈ below, a.append b schema = .ok (a.beside b schema))
    (e : Engine) {fuel : Nat} {ls rs : List Tuple} {s : JoinState σ τ}
    (stands : Pairing all below StandsL StandsR ls rs s)
    (enough : s.outer.toList.length * (rs.length + 1) + ls.length * (below.length + 2) < fuel) :
    ∃ ls' rs' s', (l.pair p schema r fuel).on (s, e)
        = (.ok (pairsLeft p schema below s.outer ls rs).head?, s', e)
      ∧ Pairing all below StandsL StandsR ls' rs' s'
      ∧ pairsLeft p schema below s'.outer ls' rs' = (pairsLeft p schema below s.outer ls rs).tail := by
  induction fuel generalizing ls rs s with
  | zero => exact absurd enough (Nat.not_lt_zero _)
  | succ fuel ih =>
    obtain ⟨outer, ahead, started, sl, sr⟩ := s
    obtain ⟨idle, atL, atR, subL, subR, whole⟩ := stands
    dsimp only at idle atL atR subL subR whole enough ⊢
    cases outer with
    | none =>
      obtain rfl := whole rfl
      cases ls with
      | nil =>
        obtain ⟨sl', found, atL'⟩ := on_pair_end left e fuel ahead started sr atL rfl
        exact ⟨[], rs, _, found, ⟨idle, atL', atR, subL, subR, whole⟩, rfl⟩
      | cons a ls =>
        obtain ⟨sl₁, asked, atL₁⟩ := left.more_cons e atL
        obtain ⟨sl₂, gave, atL₂⟩ := left.give e atL₁
        rw [pair, Turn.on_bind_ok (Work.on_own _)]
        dsimp only
        rw [Turn.on_bind_ok (on_inLeft asked), if_pos rfl, Turn.on_bind_ok (on_inLeft gave),
          Turn.on_bind_ok (Work.on_setOwn ..), pairsLeft_cons]
        exact ih ⟨idle, atL₂, atR, subL, subR, fun absurd => nomatch absurd⟩ (by
          simp only [Option.toList_some, Option.toList_none, List.length_nil, List.length_cons] at *
          grind)
    | some a =>
      rw [pair, Turn.on_bind_ok (Work.on_own _)]
      dsimp only
      cases rs with
      | nil =>
        obtain ⟨sr₁, asked, atR₁⟩ := right.more_nil e atR rfl
        obtain ⟨sr₂, rewound, atR₂⟩ := right.again e atR₁
        rw [Turn.on_bind_ok (on_inRight asked), if_neg Bool.false_ne_true,
          Turn.on_bind_ok (on_inRight rewound), Turn.on_bind_ok (Work.on_setOwn ..), pairsLeft_nil]
        exact ih ⟨idle, atL, atR₂, fun b hb => subL b (List.mem_append_right _ hb),
          List.suffix_refl _, fun _ => rfl⟩ (by
            simp only [Option.toList_some, Option.toList_none, List.length_nil, List.length_cons] at *
            grind)
      | cons b rs =>
        obtain ⟨sr₁, asked, atR₁⟩ := right.more_cons e atR
        obtain ⟨sr₂, gave, atR₂⟩ := right.give e atR₁
        have subR' : rs <:+ below := (List.suffix_cons b rs).trans subR
        rw [Turn.on_bind_ok (on_inRight asked), if_pos rfl, Turn.on_bind_ok (on_inRight gave)]
        by_cases holds : p.holds a b = true
        · have made := fits a (subL a List.mem_cons_self) b (subR.subset List.mem_cons_self)
          rw [if_pos holds, made, pairsLeft_of_pos holds]
          exact ⟨ls, rs, _, rfl, ⟨idle, atL, atR₂, subL, subR', fun absurd => nomatch absurd⟩, rfl⟩
        · rw [if_neg holds, pairsLeft_of_neg holds]
          exact ih ⟨idle, atL, atR₂, subL, subR', fun absurd => nomatch absurd⟩ (by
            simp only [Option.toList_some, List.length_nil, List.length_cons] at *
            omega)

/-- **A join that looks ahead** stands where it stood, and has the first of the
rows that are left at hand. -/
theorem on_lookPair (fits : ∀ a ∈ all, ∀ b ∈ below, a.append b schema = .ok (a.beside b schema))
    (e : Engine) {pos : Option (List Tuple)} {s : JoinState σ τ}
    (stands : JoinStands p schema all below StandsL StandsR pos s) :
    ∃ s', (l.lookPair p schema r).on (s, e) = (.ok !(pos.getD []).isEmpty, s', e)
      ∧ JoinStands p schema all below StandsL StandsR pos s' ∧ s'.ahead = (pos.getD []).head? := by
  obtain ⟨outer, ahead, started, sl, sr⟩ := s
  rw [lookPair, Turn.on_bind_ok (Turn.on_get _)]
  dsimp only
  cases pos with
  | none =>
    obtain ⟨rfl, rfl, idle, atL, atR⟩ := stands
    obtain ⟨sl', found, atL'⟩ := on_pair_end left e _ none started sr atL rfl
    exact ⟨_, Turn.on_bind_ok found, ⟨rfl, rfl, idle, atL', atR⟩, rfl⟩
  | some rest =>
    obtain ⟨ls, rs, stands, rfl⟩ := stands
    cases ahead with
    | some row => exact ⟨_, rfl, ⟨ls, rs, stands, rfl⟩, rfl⟩
    | none =>
      have enough : outer.toList.length * (rs.length + 1) + ls.length * (below.length + 2)
          < (l.bound sl e + 1) * (r.bound sr e + 2) + 1 := by
        have one : outer.toList.length ≤ 1 := by cases outer <;> simp
        have few := left.rest_le e stands.left
        have fewer := right.all_le e stands.right
        have last := stands.right_sub.length_le
        dsimp only at few fewer
        refine Nat.lt_succ_of_le ?_
        rw [Nat.succ_mul, Nat.add_comm]
        exact Nat.add_le_add (Nat.mul_le_mul few (by omega))
          (Nat.le_trans (Nat.mul_le_mul one (by omega)) (Nat.le_of_eq (Nat.one_mul _)))
      obtain ⟨ls', rs', s', found, ⟨idle, atL, atR, subL, subR, whole⟩, are⟩ :=
        on_pair (p := p) left right fits e stands enough
      dsimp only at found are ⊢
      rw [Option.isSome_none, if_neg Bool.false_ne_true, Turn.on_bind_ok found]
      cases come : pairsLeft p schema below outer ls rs with
      | nil =>
        rw [come] at are
        exact ⟨_, rfl, ⟨ls', rs', ⟨idle, atL, atR, subL, subR, whole⟩, are.symm⟩, rfl⟩
      | cons row rest =>
        rw [come] at are
        exact ⟨_, rfl, ⟨ls', rs', ⟨idle, atL, atR, subL, subR, whole⟩,
          congrArg (row :: ·) are.symm⟩, rfl⟩

/-- **A join gives the pairs of rows that satisfy its predicate.** -/
theorem Gives.join (fits : ∀ a ∈ all, ∀ b ∈ below, a.append b schema = .ok (a.beside b schema)) :
    (l.join p schema r).Gives (p.pairs schema all below) (JoinIdle IdleL IdleR)
      (JoinStands p schema all below StandsL StandsR) where
  toKeepsIdle := left.toKeepsIdle.join right.toKeepsIdle
  idle {pos s} stands := by
    cases pos with
    | none => exact ⟨stands.2.2.1, left.idle stands.2.2.2.1, right.idle stands.2.2.2.2⟩
    | some rest =>
      obtain ⟨ls, rs, stands, -⟩ := stands
      exact ⟨stands.idle, left.idle stands.left, right.idle stands.right⟩
  start {s} e idle := by
    obtain ⟨sl, startedL, atL⟩ := left.start e idle.2.1
    obtain ⟨sr, startedR, atR⟩ := right.start e idle.2.2
    refine ⟨⟨none, none, false, sl, sr⟩, Work.on_mending ?_, all, below,
      ⟨rfl, atL, atR, fun a ha => ha, List.suffix_refl _, fun _ => rfl⟩, rfl⟩
    rw [Turn.on_bind_ok (Work.on_own _), idle.1, Bool.not_false, if_pos rfl,
      Turn.on_bind_ok (Work.on_setOwn ..), Turn.on_bind_ok (on_inLeft (s := s.forget) startedL),
      Turn.on_bind_ok (Work.on_setOwn ..)]
    exact Turn.on_bind_ok
      (on_inRight (s := { s.forget with left := sl, leftStarted := true }) startedR)
  more e stands := by
    obtain ⟨s', looked, stands', -⟩ := on_lookPair left right fits e stands
    exact ⟨s', looked, stands'⟩
  give {row rest s} e stands := by
    obtain ⟨⟨outer, ahead, started, sl, sr⟩, looked, ⟨ls, rs, at', are⟩, is⟩ :=
      on_lookPair left right fits e stands
    dsimp only at is
    subst is
    refine ⟨⟨outer, none, started, sl, sr⟩, ?_, ls, rs, ?_, (List.cons.inj are).2⟩
    · exact Turn.on_bind_ok looked
    · exact ⟨at'.idle, at'.left, at'.right, at'.left_sub, at'.right_sub, at'.whole⟩
  refuse {pos s} e stands none := by
    obtain ⟨s', looked, stands', is⟩ := on_lookPair left right fits e stands
    refine ⟨s', ?_, stands'⟩
    rw [none] at is
    rw [Operator.join, Turn.on_bind_ok looked, Turn.on_bind_ok (Work.on_own _)]
    dsimp only
    rw [is]
    rfl
  again {rest s} e stands := by
    obtain ⟨ls, rs, at', -⟩ := stands
    obtain ⟨sl, rewoundL, atL⟩ := left.again e at'.left
    obtain ⟨sr, rewoundR, atR⟩ := right.again e at'.right
    refine ⟨⟨none, none, s.leftStarted, sl, sr⟩, ?_, all, below,
      ⟨at'.idle, atL, atR, fun a ha => ha, List.suffix_refl _, fun _ => rfl⟩, rfl⟩
    rw [Operator.join, Turn.on_bind_ok (Work.on_setOwn ..),
      Turn.on_bind_ok (on_inLeft (s := s.forget) rewoundL)]
    exact on_inRight (s := { s.forget with left := sl }) rewoundR
  close idle := ⟨rfl, rfl, rfl, left.close idle.2.1, right.close idle.2.2⟩
  rest_le {rest s} e stands := by
    obtain ⟨ls, rs, at', rfl⟩ := stands
    have one : s.ahead.toList.length ≤ 1 := by cases s.ahead <;> simp
    have inHand : s.outer.toList.length ≤ 1 := by cases s.outer <;> simp
    have few := left.rest_le e at'.left
    have fewer := right.all_le e at'.right
    have last := at'.right_sub.length_le
    have now : (p.pairs schema s.outer.toList rs).length ≤ 1 * r.bound s.right e :=
      Nat.le_trans JoinPredicate.length_pairs_le (Nat.mul_le_mul inHand (Nat.le_trans last fewer))
    have later : (p.pairs schema ls below).length ≤ l.bound s.left e * r.bound s.right e :=
      Nat.le_trans JoinPredicate.length_pairs_le (Nat.mul_le_mul few fewer)
    show _ ≤ (l.bound s.left e + 1) * (r.bound s.right e + 1) + 1
    rw [List.length_append, pairsLeft, List.length_append, Nat.succ_mul, Nat.mul_succ]
    omega
  all_le {rest s} e stands := by
    obtain ⟨ls, rs, at', -⟩ := stands
    calc (p.pairs schema all below).length ≤ all.length * below.length :=
          JoinPredicate.length_pairs_le
      _ ≤ (l.bound s.left e + 1) * (r.bound s.right e + 1) :=
          Nat.mul_le_mul (Nat.le_succ_of_le (left.all_le e at'.left))
            (Nat.le_succ_of_le (right.all_le e at'.right))
      _ ≤ (l.join p schema r).bound s e := Nat.le_succ _

end Stands

end Operator

end Tablespace
