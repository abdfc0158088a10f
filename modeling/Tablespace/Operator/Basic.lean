import Tablespace.Heap.Scan

/-!
# Operators

An operator is a stream of rows that can be started again. Its methods work
on a state of its own, next to the engine:

* `start` puts it before its first row, from whatever state;
* `hasNext` says whether there is a row to give, and `next` gives it;
* `rewind` puts it before its first row again;
* `close` ends it. A closed operator has no rows and `next` fails.

Every method can be cut short by a lock and called again: what it has done
so far is in the state, and the second call goes on from there. This is why
a method that starts two others in a row has to note which of them was
started.

An operator is built from others by what its methods do with theirs. The
types of the states follow: a filter over an operator with state `σ` has a
state that contains one of type `σ`.
-/

namespace Tablespace

/-- A turn of an operator with its own state, next to the engine. -/
abbrev Work (σ α : Type) := Turn (σ × Engine) α

namespace Work

variable {σ τ α : Type}

/-- A turn of the engine alone. -/
def inEngine (x : Turn Engine α) : Work σ α :=
  x.within (·.2) fun e s => (s.1, e)

/-- A turn of a part of an operator. -/
def inPart (part : σ → τ) (replace : τ → σ → σ) (x : Work τ α) : Work σ α :=
  Turn.within (fun s => (part s.1, s.2)) (fun r s => (replace r.1 s.1, r.2)) x

/-- The operator's own state. -/
def own : Work σ σ := do
  return (← get).1

/-- A change of the operator's own state. -/
def setOwn (f : σ → σ) : Work σ Unit :=
  modify fun s => (f s.1, s.2)

/-- A turn after whose refusal the operator's own state is mended. A turn
that is set aside is left as it is, to be taken up again. -/
def mending (f : σ → σ) (x : Work σ α) : Work σ α :=
  tryCatch x fun halt => do
    if !halt.isAside then setOwn f
    throw halt

end Work

/-- **A stream of rows that can be started again.** -/
structure Operator (σ : Type) where
  /-- Goes before the first row. -/
  start : Work σ Unit
  /-- Says whether there is a row to give. -/
  hasNext : Work σ Bool
  /-- Gives the next row. -/
  next : Work σ Tuple
  /-- Goes before the first row again. -/
  rewind : Work σ Unit
  /-- Ends the stream. -/
  close : σ → σ
  /-- How many rows it can give before it is started again, or rewound and
  run to its end, at most. -/
  bound : σ → Engine → Nat

namespace Operator

variable {σ : Type}

/-- A turn of an operator that stands behind something else. -/
def behind {ρ α : Type} (x : Work σ α) : Work (ρ × σ) α :=
  x.inPart (·.2) fun s p => (p.1, s)

/-- **Gives all the rows that are left**, behind those that were collected
before. What is collected is part of the state, so that a drain that was cut
short by a lock goes on with what it had. -/
def drain (op : Operator σ) : (fuel : Nat) → Work (Array Tuple × σ) (Array Tuple)
  | 0 => return (← Work.own).1
  | fuel + 1 => do
    if ← behind op.hasNext then
      let row ← behind op.next
      Work.setOwn fun s => (s.1.push row, s.2)
      op.drain fuel
    else return (← Work.own).1

/-- **Collects the rows that are left.** There are no more of them than the
operator is bound by. -/
def collect (op : Operator σ) : Work (Array Tuple × σ) (Array Tuple) := do
  let (own, e) ← get
  op.drain (op.bound own.2 e + 1)

end Operator

end Tablespace
