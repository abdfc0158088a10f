import Tablespace.Session.Schedule
import Tablespace.Session.Workspace

/-!
# Calls

A call is what a transaction asks the engine for and what a lock can hold
up: a lock, a page, an insertion, a deletion, or a method of a cursor. A
call is data, and so is how far it has come; asking it again (`Call.ask`)
resumes it.

An insertion holds no page in its hands from one step to the next, nor does a
scan from one page to the next. Both can be given a number of steps; a call that
has not finished by then is set aside, just as one that waits for a lock.
-/

namespace Tablespace

/-- **A method of a cursor.** -/
inductive Method where
  | start
  | hasNext
  | next
  | rewind
  | close
  /-- Gives all rows that are left. -/
  | collect
  deriving DecidableEq

/-- **What a call answers.** -/
inductive Answer where
  | done
  | truth (b : Bool)
  /-- A page as it stood, and its number if it is kept in hand. -/
  | page (p : Page) (held : Option Nat)
  | row (row : Tuple)
  | rows (rows : List Tuple)

/-- **A call**, as far as it has come. -/
inductive Call where
  /-- Lock a page. -/
  | lock (txn : TxnId) (page : PageId) (mode : LockMode)
  /-- Lock a page and give it, and keep it in hand if wanted. -/
  | fetch (txn : TxnId) (page : PageId) (mode : LockMode) (keep : Bool)
  /-- Insert a row into a file, and mark the page as changed if wanted. -/
  | insert (txn : TxnId) (file : HeapFile) (row : Tuple) (mark : Bool) (stage : InsertionStage)
  /-- Delete a row by its place, and mark the page as changed if wanted. -/
  | delete (txn : TxnId) (row : Tuple) (record : RecordId) (mark : Bool)
  /-- A method of a cursor, with the rows collected so far. -/
  | method (cursor : Nat) (method : Method) (collected : Array Tuple)
  deriving DecidableEq

namespace Operator

/-- **A method of an operator**, next to the rows collected so far. -/
def run {σ : Type} (op : Operator σ) : Method → Work (Array Tuple × σ) Answer
  | .start => do
    behind op.start
    return .done
  | .hasNext => return .truth (← behind op.hasNext)
  | .next => return .row (← behind op.next)
  | .rewind => do
    behind op.rewind
    return .done
  | .close => do
    Work.setOwn fun s => (s.1, op.close s.2)
    return .done
  | .collect => return .rows (← op.collect).toList

end Operator

/-- **A method of a cursor**: the outcome, the rows collected so far, the
cursor and the engine after it. The steps of a scan can be limited. -/
def Cursor.run (m : Method) (collected : Array Tuple) (e : Engine) (c : Cursor)
    (steps : Option Nat := none) : Except Halt Answer × Array Tuple × Cursor × Engine :=
  match c with
  | .file scan state =>
    let r := ((Operator.ofFile scan steps).run m).on ((collected, state), e)
    (r.1, r.2.1.1, .file scan r.2.1.2, r.2.2)
  | .plan p state =>
    let r := (p.operator.run m).on ((collected, state), e)
    (r.1, r.2.1.1, .plan p r.2.1.2, r.2.2)

namespace Call

/-- The transactions that a call is for. -/
def txns (w : Workspace) : Call → List TxnId
  | lock t _ _ | fetch t _ _ _ | insert t _ _ _ _ | delete t _ _ _ => [t]
  | method cursor _ _ => ((w.cursors[cursor]?).map Cursor.txns).getD []

/-- **Locks a page, gives it and keeps it in hand.** -/
def fetchPage (t : TxnId) (page : PageId) (mode : LockMode) (keep : Bool) (w : Workspace) :
    Except Halt Answer × Workspace :=
  match w.onEngine (Engine.fetch t page mode) with
  | (.ok p, w') =>
    let r := if keep then w'.hold page else (none, w')
    (.ok (.page p r.1), r.2)
  | (.error halt, w') => (.error halt, w')

/-- **Goes on with an insertion.** -/
def insertRow (t : TxnId) (file : HeapFile) (row : Tuple) (mark : Bool)
    (steps : Option Nat := none) : Turn (InsertionStage × Engine) Answer := do
  let (stored, p) ← file.insert t row steps
  if mark then HeapFile.inEngine (Engine.install t p)
  return .row stored

/-- **Deletes a row.** A page that is not marked is given. -/
def deleteRow (t : TxnId) (row : Tuple) (record : RecordId) (mark : Bool) : Turn Engine Answer := do
  let p ← Engine.deleteAt t row record
  if mark then
    Engine.install t p
    return .done
  else return .page p none

/-- **Takes one turn of a call**: the outcome, the call as far as it has come,
and the workspace after the turn. The steps of an insertion or of a scan can be
limited. -/
def turn (w : Workspace) (c : Call) (steps : Option Nat := none) :
    Except Halt Answer × Call × Workspace :=
  match c with
  | lock t page mode =>
    let r := w.onEngine (Engine.onLocks (LockTable.acquire t page mode))
    (r.1.map fun _ => .done, lock t page mode, r.2)
  | fetch t page mode keep =>
    let r := fetchPage t page mode keep w
    (r.1, fetch t page mode keep, r.2)
  | insert t file row mark stage =>
    let r := (insertRow t file row mark steps).on (stage, w.engine)
    (r.1, insert t file row mark r.2.1, w.advance r.2.2)
  | delete t row record mark =>
    let r := w.onEngine (deleteRow t row record mark)
    (r.1, delete t row record mark, r.2)
  | method cursor m collected =>
    match w.cursors[cursor]? with
    | none => (.ok .done, method cursor m collected, w)
    | some c =>
      let r := c.run m collected w.engine steps
      (r.1, method cursor m r.2.1, (w.advance r.2.2.2).setCursor cursor r.2.2.1)

/-- **Asks a call once.** A call that is set aside has got further if it has taken
a lock or has come to another stage. -/
def ask (c : Call) (w : Workspace) (steps : Option Nat := none) :
    Asked Call (Except Halt Answer) × Workspace :=
  match c.turn w steps with
  | (.ok answer, _, w') => (.answered (.ok answer), w')
  | (.error halt, c', w') =>
    if halt.isAside then
      (.blocked (c ≠ c' || !w.engine.locks.sameLocks w'.engine.locks) c', w')
    else (.answered (.error halt), w')

end Call

end Tablespace
