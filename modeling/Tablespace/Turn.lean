import Tablespace.Fault

/-!
# Turns

A call into the engine does a **turn**: it works on a state until it has its
answer or is cut short. What it did to the state stays done in both cases –
a page that was read before a later step failed stays in the cache, a lock
that was taken stays taken. There are four ways to be cut short: by a
fault, by a lock that another transaction holds, by a limit on the steps of a
turn, and by a breach of what the caller has to see to. A call that has to wait
for a lock or has come to the limit is not lost; it is set aside, and taken up
again by another turn, from where the state says it had come.
-/

namespace Tablespace

/-- **Why a turn was cut short.** -/
inductive Halt where
  /-- The operation was refused. -/
  | fault (cause : Fault)
  /-- Another transaction holds a lock that the call needs. -/
  | wait
  /-- The call has taken as many steps as it was to take in one turn. -/
  | pause
  /-- The caller broke a condition that the operation depends on: a buffer
  or page is not as long as the pages of the file, or pages of no length
  are to be counted. -/
  | breach
  deriving DecidableEq, Inhabited

/-- **Whether the call is set aside**, to be taken up again. -/
def Halt.isAside : Halt → Bool
  | wait | pause => true
  | fault _ | breach => false

/-- **A turn of work on a state**, which answers or is cut short, and keeps
the state it has reached in both cases. -/
abbrev Turn (σ α : Type) := ExceptT Halt (StateM σ) α

namespace Turn

variable {σ τ α : Type}

/-- The outcome of a turn from a state, and the state it leaves behind. -/
def on (x : Turn σ α) (s : σ) : Except Halt α × σ :=
  x s

/-- A turn given by its outcome and the state it leaves behind. -/
def ofFn (f : σ → Except Halt α × σ) : Turn σ α :=
  f

/-- A turn that is refused. -/
def refuse (cause : Fault) : Turn σ α :=
  throw (.fault cause)

/-- The answer of a computation that needs no state. -/
def ofExcept : Except Fault α → Turn σ α
  | .ok a => pure a
  | .error cause => refuse cause

/-- **A turn on a part of the state.** -/
def within (part : σ → τ) (replace : τ → σ → σ) (x : Turn τ α) : Turn σ α :=
  ofFn fun s =>
    let r := x.on (part s)
    (r.1, replace r.2 s)

end Turn

end Tablespace
