import Tablespace.Operator.Basic
import Tablespace.Predicate

/-!
# Filters

A filter gives the rows of an operator that satisfy a predicate. It looks
ahead: the row it has found and not yet given is part of its state.
-/

namespace Tablespace

namespace Operator

variable {σ : Type}

/-- Takes rows until one satisfies the predicate, and says whether one
did. -/
def seek (p : Predicate) (op : Operator σ) : (fuel : Nat) → Work (Option Tuple × σ) Bool
  | 0 => return false
  | fuel + 1 => do
    if ← behind op.hasNext then
      let row ← behind op.next
      if p.holds row then
        Work.setOwn fun s => (some row, s.2)
        return true
      else op.seek p fuel
    else return false

/-- Whether there is a row ahead, found before or found now. -/
def look (p : Predicate) (op : Operator σ) : Work (Option Tuple × σ) Bool := do
  let ((ahead, own), e) ← get
  if ahead.isSome then return true
  else op.seek p (op.bound own e + 1)

/-- **The operator that gives the rows that satisfy a predicate.** -/
def filter (p : Predicate) (op : Operator σ) : Operator (Option Tuple × σ) where
  start := do
    Work.setOwn fun s => (none, s.2)
    behind op.start
  hasNext := op.look p
  next := do
    let _ ← op.look p
    match (← Work.own).1 with
    | none => Turn.refuse .noSuchElement
    | some row =>
      Work.setOwn fun s => (none, s.2)
      return row
  rewind := do
    Work.setOwn fun s => (none, s.2)
    behind op.rewind
  close := fun s => (none, op.close s.2)
  bound := fun s e => op.bound s.2 e + 1

end Operator

end Tablespace
