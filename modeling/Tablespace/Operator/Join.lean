import Tablespace.Operator.Basic
import Tablespace.Predicate

/-!
# Joins

A join gives, for each left row in order, for each right row in order, the
two rows as one if they satisfy a predicate. The right operator is run to
its end and rewound for each left row.

The state holds the left row that is being matched, the row found and not
yet given, and which of the two operators has been started while the join is
being started.
-/

namespace Tablespace

/-- **The state of a join** over operators with states `σ` and `τ`. -/
structure JoinState (σ τ : Type) where
  /-- The left row that is being matched. -/
  outer : Option Tuple
  /-- The row found and not yet given. -/
  ahead : Option Tuple
  /-- Whether the join is being started, and its left operator has been. -/
  leftStarted : Bool
  /-- The state of the left operator. -/
  left : σ
  /-- The state of the right operator. -/
  right : τ

namespace JoinState

variable {σ τ : Type}

/-- The state with no row in hand. -/
def forget (s : JoinState σ τ) : JoinState σ τ :=
  { s with outer := none, ahead := none }

/-- A turn of the left operator. -/
def inLeft {α : Type} (x : Work σ α) : Work (JoinState σ τ) α :=
  x.inPart (·.left) fun l s => { s with left := l }

/-- A turn of the right operator. -/
def inRight {α : Type} (x : Work τ α) : Work (JoinState σ τ) α :=
  x.inPart (·.right) fun r s => { s with right := r }

end JoinState

namespace Operator

open JoinState

variable {σ τ : Type}

/-- Goes through pairs of rows until two of them match, and says what they
are as one. -/
def pair (p : JoinPredicate) (schema : Schema) (l : Operator σ) (r : Operator τ) :
    (fuel : Nat) → Work (JoinState σ τ) (Option Tuple)
  | 0 => return none
  | fuel + 1 => do
    match (← Work.own).outer with
    | none =>
      if ← inLeft l.hasNext then
        let row ← inLeft l.next
        Work.setOwn fun s => { s with outer := some row }
        l.pair p schema r fuel
      else return none
    | some outer =>
      if ← inRight r.hasNext then
        let inner ← inRight r.next
        if p.holds outer inner then
          return some (← Turn.ofExcept (outer.append inner schema))
        else l.pair p schema r fuel
      else
        inRight r.rewind
        Work.setOwn fun s => { s with outer := none }
        l.pair p schema r fuel

/-- Whether there is a row ahead, found before or found now. Each left row
takes one step for itself, one for each right row, and one to rewind. -/
def lookPair (p : JoinPredicate) (schema : Schema) (l : Operator σ) (r : Operator τ) :
    Work (JoinState σ τ) Bool := do
  let (own, e) ← get
  if own.ahead.isSome then return true
  else
    let found ← l.pair p schema r ((l.bound own.left e + 1) * (r.bound own.right e + 2) + 1)
    Work.setOwn fun s => { s with ahead := found }
    return found.isSome

/-- **The operator that gives the pairs of rows that satisfy a predicate**,
as rows of a schema. -/
def join (p : JoinPredicate) (schema : Schema) (l : Operator σ) (r : Operator τ) :
    Operator (JoinState σ τ) where
  start := Work.mending (fun s => { s with leftStarted := false }) do
    if !(← Work.own).leftStarted then
      Work.setOwn forget
      inLeft l.start
      Work.setOwn fun s => { s with leftStarted := true }
    inRight r.start
    Work.setOwn fun s => { s with leftStarted := false }
  hasNext := l.lookPair p schema r
  next := do
    let _ ← l.lookPair p schema r
    match (← Work.own).ahead with
    | none => Turn.refuse .noSuchElement
    | some row =>
      Work.setOwn fun s => { s with ahead := none }
      return row
  rewind := do
    Work.setOwn forget
    inLeft l.rewind
    inRight r.rewind
  close := fun s =>
    { s.forget with left := l.close s.left, right := r.close s.right, leftStarted := false }
  bound := fun s e => (l.bound s.left e + 1) * (r.bound s.right e + 1) + 1

end Operator

end Tablespace
