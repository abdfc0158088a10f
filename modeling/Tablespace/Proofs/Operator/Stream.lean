import Tablespace.Operator.Rows
import Tablespace.Proofs.Turn

/-!
# Operators that give a list of rows

An operator **gives** a list of rows (`Operator.Gives`) if its state stands
somewhere in the list, or nowhere when it is closed, and its methods do to where
it stands what one expects: to start it is to stand before the first row,
whatever was before; to ask whether there is a row leaves it where it stands; and
so on. What the state looks like is a matter of the operator, and so is what has
to be so when it is started: nobody else is in the middle of starting it
(`Idle`).

That an operator gives a list is all that the operators above it have to know of
it. Here this is shown of rows at hand.
-/

namespace Tablespace

/-! ## Work, step by step -/

namespace Work

variable {σ τ α β : Type} {s : σ} {e e' : Engine}

theorem on_own (s : σ × Engine) : (own : Work σ σ).on s = (.ok s.1, s) :=
  rfl

theorem on_setOwn (f : σ → σ) (s : σ) (e : Engine) : (setOwn f).on (s, e) = (.ok (), f s, e) :=
  rfl

/-- A turn of a part leaves the rest of the operator as it is. -/
theorem on_inPart {part : σ → τ} {replace : τ → σ → σ} {x : Work τ α} {outcome : Except Halt α}
    {t : τ} (h : x.on (part s, e) = (outcome, t, e')) :
    (x.inPart part replace).on (s, e) = (outcome, replace t s, e') := by
  show ((x.on (part s, e)).1, replace (x.on (part s, e)).2.1 s, (x.on (part s, e)).2.2) = _
  rw [h]

/-- Work that is done needs no mending. -/
theorem on_mending {f : σ → σ} {x : Work σ α} {a : α} {s' : σ}
    (h : x.on (s, e) = (.ok a, s', e')) : (x.mending f).on (s, e) = (.ok a, s', e') := by
  rw [mending, Turn.on_tryCatch, h]

/-- Work that is refused is mended where it was cut short. -/
theorem on_mending_fault {f : σ → σ} {x : Work σ α} {cause : Fault} {s' : σ}
    (h : x.on (s, e) = (.error (.fault cause), s', e')) :
    (x.mending f).on (s, e) = (.error (.fault cause), f s', e') := by
  rw [mending, Turn.on_tryCatch, h]
  rfl

/-- **Work that keeps a property of the state**, whatever comes of it. -/
def Keeps (P : σ → Prop) (x : Work σ α) : Prop :=
  ∀ s e, P s → P (x.on (s, e)).2.1

namespace Keeps

variable {P : σ → Prop} {Q : τ → Prop}

theorem pure (a : α) : Keeps P (Pure.pure a) :=
  fun _ _ h => h

theorem refuse (cause : Fault) : Keeps P (Turn.refuse cause : Work σ α) :=
  fun _ _ h => h

theorem ofExcept (outcome : Except Fault α) : Keeps P (Turn.ofExcept outcome) := by
  cases outcome with
  | ok a => exact pure a
  | error cause => exact refuse cause

theorem own : Keeps P (Work.own : Work σ σ) :=
  fun _ _ h => h

theorem get : Keeps P (MonadState.get : Work σ (σ × Engine)) :=
  fun _ _ h => h

theorem setOwn {f : σ → σ} (keeps : ∀ s, P s → P (f s)) : Keeps P (Work.setOwn f) :=
  fun s _ h => keeps s h

/-- One piece of work after another. -/
theorem bind {x : Work σ α} {f : α → Work σ β} (first : Keeps P x) (second : ∀ a, Keeps P (f a)) :
    Keeps P (x >>= f) := by
  intro s e h
  have kept := first s e h
  rw [Turn.on_bind]
  cases came : x.on (s, e) with | mk outcome after =>
  rw [came] at kept
  cases outcome with
  | error halt => exact kept
  | ok a => exact second a after.1 after.2 kept

/-- A part of the state is worked on. -/
theorem inPart {part : σ → τ} {replace : τ → σ → σ} {x : Work τ α} (keeps : Keeps Q x)
    (parts : ∀ s, P s → Q (part s)) (whole : ∀ s t, P s → Q t → P (replace t s)) :
    Keeps P (x.inPart part replace) :=
  fun s e h => whole s _ h (keeps (part s) e (parts s h))

/-- The work of an operator that stands behind something else. -/
theorem behind {ρ : Type} {x : Work τ α} (keeps : Keeps Q x) :
    Keeps (fun s : ρ × τ => Q s.2) (Operator.behind x) :=
  keeps.inPart (fun _ h => h) fun _ _ _ h => h

end Keeps

end Work

namespace Operator

variable {σ : Type}

/-- A turn of an operator that stands behind something else. -/
theorem on_behind {ρ α : Type} {x : Work σ α} {outcome : Except Halt α} {s t : σ} {e e' : Engine}
    (r : ρ) (h : x.on (s, e) = (outcome, t, e')) :
    (behind x).on ((r, s), e) = (outcome, (r, t), e') :=
  Work.on_inPart h

/-! ## Giving rows -/

/-- **An operator that nobody is in the middle of starting stays so**, whatever
else is done with it. -/
structure KeepsIdle (op : Operator σ) (Idle : σ → Prop) : Prop where
  hasNext : Work.Keeps Idle op.hasNext
  next : Work.Keeps Idle op.next
  rewind : Work.Keeps Idle op.rewind

/-- **An operator that gives a list of rows.** Its state stands before the rows
that are left, or nowhere when it is closed. -/
structure Gives (op : Operator σ) (all : List Tuple) (Idle : σ → Prop)
    (Stands : Option (List Tuple) → σ → Prop) : Prop extends op.KeepsIdle Idle where
  /-- What stands somewhere is not being started. -/
  idle : ∀ {pos s}, Stands pos s → Idle s
  /-- Once it is started, all rows are left. -/
  start : ∀ {s} (e : Engine), Idle s →
    ∃ s', op.start.on (s, e) = (.ok (), s', e) ∧ Stands (some all) s'
  /-- It says whether a row is left, and stays where it is. -/
  more : ∀ {pos s} (e : Engine), Stands pos s →
    ∃ s', op.hasNext.on (s, e) = (.ok !(pos.getD []).isEmpty, s', e) ∧ Stands pos s'
  /-- It gives the first of the rows that are left. -/
  give : ∀ {row rest s} (e : Engine), Stands (some (row :: rest)) s →
    ∃ s', op.next.on (s, e) = (.ok row, s', e) ∧ Stands (some rest) s'
  /-- When no row is left, it gives none. -/
  refuse : ∀ {pos s} (e : Engine), Stands pos s → pos.getD [] = [] →
    ∃ s', op.next.on (s, e) = (.error (.fault .noSuchElement), s', e) ∧ Stands pos s'
  /-- Once it is rewound, all rows are left again. -/
  again : ∀ {rest s} (e : Engine), Stands (some rest) s →
    ∃ s', op.rewind.on (s, e) = (.ok (), s', e) ∧ Stands (some all) s'
  /-- It can be closed at any time. -/
  close : ∀ {s}, Idle s → Stands none (op.close s)
  /-- No more rows are left than the operator is bound by, -/
  rest_le : ∀ {rest s} (e : Engine), Stands (some rest) s → rest.length ≤ op.bound s e
  /-- and there are no more when it is rewound. -/
  all_le : ∀ {rest s} (e : Engine), Stands (some rest) s → all.length ≤ op.bound s e

namespace Gives

variable {op : Operator σ} {all : List Tuple} {Idle : σ → Prop}
  {Stands : Option (List Tuple) → σ → Prop} (gives : op.Gives all Idle Stands)

include gives

theorem more_cons (e : Engine) {row : Tuple} {rest : List Tuple} {s : σ}
    (stands : Stands (some (row :: rest)) s) :
    ∃ s', op.hasNext.on (s, e) = (.ok true, s', e) ∧ Stands (some (row :: rest)) s' :=
  gives.more e stands

theorem more_nil (e : Engine) {pos : Option (List Tuple)} {s : σ} (stands : Stands pos s)
    (none : pos.getD [] = []) :
    ∃ s', op.hasNext.on (s, e) = (.ok false, s', e) ∧ Stands pos s' := by
  have asked := gives.more e stands
  rwa [none] at asked

/-- A drain gives nothing more when no row is left. -/
theorem on_drain_nil (e : Engine) {pos : Option (List Tuple)} {s : σ} (fuel : Nat)
    (collected : Array Tuple) (stands : Stands pos s) (none : pos.getD [] = []) :
    ∃ s', (op.drain (fuel + 1)).on ((collected, s), e) = (.ok collected, (collected, s'), e)
      ∧ Stands pos s' := by
  obtain ⟨s', asked, stands'⟩ := gives.more_nil e stands none
  exact ⟨s', by rw [drain, Turn.on_bind_ok (on_behind collected asked)]; rfl, stands'⟩

/-- **A drain gives the rows that are left**, in order, behind those that were
collected before. -/
theorem on_drain (e : Engine) {rest : List Tuple} {fuel : Nat} (collected : Array Tuple) {s : σ}
    (stands : Stands (some rest) s) (enough : rest.length < fuel) :
    ∃ rows s', (op.drain fuel).on ((collected, s), e) = (.ok rows, (rows, s'), e)
      ∧ rows.toList = collected.toList ++ rest ∧ Stands (some []) s' := by
  induction rest generalizing collected s fuel with
  | nil =>
    obtain ⟨fuel, rfl⟩ := Nat.exists_eq_add_one_of_ne_zero (Nat.ne_of_gt enough)
    obtain ⟨s', drained, stands'⟩ := gives.on_drain_nil e fuel collected stands rfl
    exact ⟨collected, s', drained, (List.append_nil _).symm, stands'⟩
  | cons row rest ih =>
    obtain ⟨fuel, rfl⟩ := Nat.exists_eq_add_one_of_ne_zero (Nat.ne_of_gt (Nat.zero_lt_of_lt enough))
    obtain ⟨s₁, asked, stands₁⟩ := gives.more_cons e stands
    obtain ⟨s₂, gave, stands₂⟩ := gives.give e stands₁
    obtain ⟨rows, s₃, drained, are, stands₃⟩ :=
      ih (collected.push row) stands₂ (Nat.lt_of_succ_lt_succ enough)
    refine ⟨rows, s₃, ?_, ?_, stands₃⟩
    · rw [drain, Turn.on_bind_ok (on_behind collected asked), if_pos rfl,
        Turn.on_bind_ok (on_behind collected gave)]
      exact drained
    · rw [are, Array.toList_push, List.append_assoc, List.singleton_append]

/-- **All rows that are left are collected**, and then none is left. -/
theorem on_collect (e : Engine) {pos : Option (List Tuple)} {s : σ} (stands : Stands pos s) :
    ∃ rows s', op.collect.on ((#[], s), e) = (.ok rows, (rows, s'), e)
      ∧ rows.toList = pos.getD [] ∧ Stands (pos.map fun _ => []) s' := by
  have start : op.collect.on ((#[], s), e) = (op.drain (op.bound s e + 1)).on ((#[], s), e) :=
    Turn.on_bind_ok (Turn.on_get _)
  rw [start]
  cases pos with
  | none =>
    obtain ⟨s', drained, stands'⟩ := gives.on_drain_nil e (op.bound s e) #[] stands rfl
    exact ⟨#[], s', drained, rfl, stands'⟩
  | some rest => exact gives.on_drain e #[] stands (Nat.lt_succ_of_le (gives.rest_le e stands))

end Gives

/-! ## Rows at hand -/

/-- A row is left if fewer have been given than there are. -/
theorem lt_length_iff_drop (list : List Tuple) (given : Nat) :
    decide (given < list.length) = !(list.drop given).isEmpty := by
  rw [Bool.eq_iff_iff]
  simp

/-- The first row that is left is the one whose number has been reached, and
then one more has been given. -/
theorem getElem?_of_drop {list rest : List Tuple} {row : Tuple} {given : Nat}
    (left : row :: rest = list.drop given) :
    list[given]? = some row ∧ rest = list.drop (given + 1) := by
  constructor
  · rw [← List.head?_drop, ← left, List.head?_cons]
  · rw [← List.tail_drop, ← left, List.tail_cons]

/-- **Rows at hand are given in order.** The operator over them stands where so
many have been given. -/
theorem gives_ofRows (list : List Tuple) :
    (ofRows list).Gives list (fun _ => True) fun pos given => pos = given.map list.drop where
  hasNext := fun _ _ _ => trivial
  next := fun _ _ _ => trivial
  rewind := fun _ _ _ => trivial
  idle _ := trivial
  start e _ := ⟨some 0, rfl, rfl⟩
  more {pos given} e stands := by
    subst stands
    cases given with
    | none => exact ⟨none, rfl, rfl⟩
    | some given =>
      refine ⟨some given, ?_, rfl⟩
      show ((.ok (decide (given < list.length)), some given, e) : Except Halt Bool × _ × _) = _
      rw [lt_length_iff_drop]
      rfl
  give {row rest given} e stands := by
    cases given with
    | none => cases stands
    | some given =>
      obtain ⟨here, after⟩ := getElem?_of_drop (Option.some.inj stands)
      refine ⟨some (given + 1), ?_, congrArg some after⟩
      have found : (some given).bind (list[·]?) = some row := here
      rw [ofRows, Turn.on_bind_ok (Work.on_own _), found]
      rfl
  refuse {pos given} e stands none := by
    subst stands
    refine ⟨given, ?_, rfl⟩
    have found : given.bind (list[·]?) = Option.none := by
      cases given with
      | none => rfl
      | some given => exact List.getElem?_eq_none (List.drop_eq_nil_iff.1 none)
    rw [ofRows, Turn.on_bind_ok (Work.on_own _)]
    dsimp only
    rw [found]
    cases given <;> rfl
  again e _ := ⟨some 0, rfl, rfl⟩
  close _ := rfl
  rest_le {rest given} e stands := by
    cases given with
    | none => cases stands
    | some given =>
      rw [Option.some.inj stands]
      exact List.length_drop ▸ Nat.sub_le ..
  all_le e stands := Nat.le_refl _

end Operator

end Tablespace
