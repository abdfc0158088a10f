import Tablespace.Heap.Deletion
import Tablespace.Heap.Insertion
import Tablespace.Operator.Plan
import Tablespace.Pool.Completion

/-!
# The workspace

A workspace is the engine together with what its users have in hand:
transactions and how far they have come, cursors that give rows, and pages.

A **page in hand** is a page that was fetched and kept. As long as the load
that brought it is in the cache, it *is* the page in the cache: a change
through one is seen through the other. When that load leaves the cache –
thrown out, or replaced by a fresh copy – what is left in hand is a copy,
which is one for all who have a page of that load in hand. No lock is looked
at when a page in hand is read or changed.
-/

namespace Tablespace

/-- **A cursor**: an operator with its state. -/
inductive Cursor where
  /-- The rows of a file. -/
  | file (scan : HeapScan) (state : Option ScanPosition)
  /-- The rows of a plan. -/
  | plan (plan : Plan) (state : plan.State)

/-- The transactions whose locks a cursor takes. -/
def Cursor.txns : Cursor → List TxnId
  | file scan _ => [scan.txn]
  | plan p _ => p.txns

/-- **A page in hand**: which page, and the load that brought it. -/
structure Held where
  /-- The page. -/
  page : PageId
  /-- Which load brought it. -/
  load : Nat
  deriving DecidableEq

/-- The page in hand as it is in the cache, if its load is there. -/
def Held.frame? (h : Held) (e : Engine) : Option Frame :=
  (e.frame? h.page).filter (·.load = h.load)

/-- **The engine, and what its users have in hand.** -/
structure Workspace where
  /-- The engine. -/
  engine : Engine
  /-- The transactions, in the order of their numbers. -/
  statuses : List TxnStatus
  /-- The cursors, in the order in which they were made. -/
  cursors : List Cursor
  /-- The pages in hand, in the order in which they were kept. -/
  held : List Held
  /-- The pages in hand whose loads have left the cache, by their loads. -/
  copies : List (Nat × Page)

namespace Workspace

/-- The workspace of an engine that nobody has used. -/
def ofEngine (e : Engine) : Workspace :=
  ⟨e, [], [], [], []⟩

/-! ## Pages in hand -/

/-- What is left in hand of a load that a change of the engine took out of
the cache. -/
def leftInHand (before after : Engine) (h : Held) : Option (Nat × Page) :=
  if (h.frame? after).isSome then none
  else (h.frame? before).map fun frame => (h.load, frame.page)

/-- The workspace after the engine has changed. -/
def advance (w : Workspace) (e : Engine) : Workspace :=
  { w with engine := e, copies := w.held.filterMap (leftInHand w.engine e) ++ w.copies }

/-- **A turn of the engine**, after which pages in hand may have become
copies. -/
def onEngine {α : Type} (x : Turn Engine α) (w : Workspace) : Except Halt α × Workspace :=
  let r := x.on w.engine
  (r.1, w.advance r.2)

/-- **Takes a page of the cache in hand**, and says by which number. -/
def hold (w : Workspace) (page : PageId) : Option Nat × Workspace :=
  match w.engine.frame? page with
  | none => (none, w)
  | some frame => (some w.held.length, { w with held := w.held ++ [⟨page, frame.load⟩] })

/-- **The page in hand.** -/
def heldPage? (w : Workspace) (n : Nat) : Option Page := do
  let h ← w.held[n]?
  match h.frame? w.engine with
  | some frame => return frame.page
  | none => (w.copies.find? (·.1 = h.load)).map (·.2)

/-- **The workspace with a page in hand changed**, for all who have it in
hand. -/
def setHeld (w : Workspace) (n : Nat) (p : Page) : Workspace :=
  match w.held[n]? with
  | none => w
  | some h =>
    match h.frame? w.engine with
    | some _ =>
      { w with
        engine.cache := w.engine.cache.modify h.page fun frame => { frame with page := p } }
    | none => { w with copies := w.copies.map fun c => if c.1 = h.load then (c.1, p) else c }

/-! ## Transactions -/

/-- **Begins a transaction.** -/
def begin (w : Workspace) : TxnId × Workspace :=
  (⟨w.statuses.length + 1⟩, { w with statuses := w.statuses ++ [.active] })

/-- How far a transaction has come. -/
def status (w : Workspace) (t : TxnId) : TxnStatus :=
  (w.statuses[t.number - 1]?).getD .active

/-- The workspace with a transaction that has come so far. -/
def setStatus (w : Workspace) (t : TxnId) (s : TxnStatus) : Workspace :=
  { w with statuses := w.statuses.set (t.number - 1) s }

/-- **Commits a transaction**, if it is active. A commit that is refused
leaves it aborted. -/
def commit (w : Workspace) (t : TxnId) : Except Halt Unit × Workspace :=
  match w.status t with
  | .active =>
    match w.onEngine (Engine.commit t) with
    | (.ok (), w') => (.ok (), w'.setStatus t .committed)
    | (.error .breach, w') => (.error .breach, w')
    | (.error halt, w') => (.error halt, w'.setStatus t .aborted)
  | ended => (.error (.fault (.alreadyEnded t ended)), w)

/-- **Aborts a transaction**, if it is active. -/
def abort (w : Workspace) (t : TxnId) : Except Halt Unit × Workspace :=
  match w.status t with
  | .active => (w.setStatus t .aborted).onEngine (Engine.abort t)
  | ended => (.error (.fault (.alreadyEnded t ended)), w)

/-! ## Cursors -/

/-- **Makes a cursor**, and says by which number. -/
def addCursor (w : Workspace) (c : Cursor) : Nat × Workspace :=
  (w.cursors.length, { w with cursors := w.cursors ++ [c] })

/-- The workspace with another cursor in place of one. -/
def setCursor (w : Workspace) (n : Nat) (c : Cursor) : Workspace :=
  { w with cursors := w.cursors.set n c }

end Workspace

end Tablespace
