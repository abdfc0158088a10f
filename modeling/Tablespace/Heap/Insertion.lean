import Tablespace.Pool.Basic

/-!
# Insertion

A row goes into the **first page with a free slot**. Its pages are looked
through in order, each under an exclusive lock; a page that turns out to be
full goes back to the lock the transaction held on it before. When all are
full, an empty page is written behind them, and the row goes there – into
the page in the cache, so that the row reaches the file only by commit.

The number of pages is looked up once per round, without a lock. A page that
was appended can be found and filled by another transaction before the one
that appended it has locked it; then another round goes over the pages
appended since.

An insertion goes **step by step** (`HeapFile.insertStep`): a page is tried, a
page is appended, or the pages are counted. From one step to the next it holds
nothing but locks, so anything can happen in between. It can be held up at any
page by a lock, and it can be set aside after any step. How far it has come
(`InsertionStage`) is part of the state it works on, and it is taken up from
there.
-/

namespace Tablespace

/-- **How far an insertion has come.** -/
inductive InsertionStage where
  /-- The pages before `next` were full; those before `limit` are to be
  looked through. -/
  | scanning (next limit : Nat)
  /-- The pages before `limit` were full, and page `page` was appended. -/
  | appended (page : UInt32) (limit : Nat)
  /-- The pages before `limit` were full, and so was the page appended by then:
  the pages are to be counted again. -/
  | counting (limit : Nat)
  deriving DecidableEq

namespace Engine

/-- Gives a lock back to what it was before. -/
def giveBack (e : Engine) (t : TxnId) (page : PageId) : (before : Option LockMode) → Engine
  | none => e.changeLocks (·.release t page)
  | some .shared => e.changeLocks (·.downgrade t page)
  | some .exclusive => e

/-- **Tries to store a row in one page.** It is stored if the page has a free
slot; else the lock on the page is given back. -/
def tryInsert (t : TxnId) (row : Tuple) (page : PageId) : Turn Engine (Option (Tuple × Page)) := do
  let before := (← get).locks.mode? t page
  let p ← fetch t page .exclusive
  if p.hasFreeSlot then
    return some (← change p (·.insert row))
  else
    modify fun e => e.giveBack t page before
    return none

end Engine

namespace HeapFile

/-- The state of an insertion: how far it has come, and the engine. -/
abbrev Inserting (α : Type) := Turn (InsertionStage × Engine) α

/-- A turn of the engine in the course of an insertion. -/
def inEngine {α : Type} (x : Turn Engine α) : Inserting α :=
  x.within (·.2) fun e s => (s.1, e)

/-- Where an insertion starts. -/
def firstStage (f : HeapFile) (e : Engine) : InsertionStage :=
  .scanning 0 (f.pageCount e.volume).toNat

/-- Appends a page to the file. -/
def append (f : HeapFile) : Turn Engine UInt32 := do
  let e ← get
  let r := f.appendPage e.volume
  set { e with volume := r.2 }
  return r.1

/-- **Tries a page.** If it is full, then the insertion has come to another
stage. -/
def tryPage (f : HeapFile) (t : TxnId) (row : Tuple) (page : UInt32) (full : InsertionStage) :
    Inserting (Option (Tuple × Page)) := do
  let stored ← inEngine (Engine.tryInsert t row ⟨f.table, page⟩)
  if stored.isNone then modify fun s => (full, s.2)
  return stored

/-- **Takes a step of an insertion.** If the row is stored by it, then the row
comes back with its place, together with the page that it was stored in. -/
def insertStep (f : HeapFile) (t : TxnId) (row : Tuple) :
    Inserting (Option (Tuple × Page)) := do
  let (stage, e) ← get
  match stage with
  | .scanning next limit =>
    if next < limit then f.tryPage t row (UInt32.ofNat next) (.scanning (next + 1) limit)
    else
      let page ← inEngine f.append
      modify fun s => (.appended page limit, s.2)
      return none
  | .appended page limit => f.tryPage t row page (.counting limit)
  | .counting limit =>
    set (InsertionStage.scanning limit (f.pageCount e.volume).toNat, e)
    return none

/-- **Goes on with an insertion** for at most so many steps; after them it is
set aside. -/
def insertFrom (f : HeapFile) (t : TxnId) (row : Tuple) : (steps : Nat) → Inserting (Tuple × Page)
  | 0 => throw .pause
  | steps + 1 => do
    match ← f.insertStep t row with
    | some stored => return stored
    | none => f.insertFrom t row steps

/-- How many steps an insertion can take from a state: over the pages left
in this round, and then, with four steps for each, over pages that are in the
file, in the file of the catalog, or in the cache. In a file of `2 ^ 32` pages or
more, whose pages are counted wrong, an insertion can go on for ever, appending
the same page again and again; it is set aside then. -/
def insertionFuel (f : HeapFile) (s : InsertionStage × Engine) : Nat :=
  let known := match s.1 with
    | .scanning _ limit => limit
    | .appended _ limit => limit
    | .counting limit => limit
  let catalogued := match s.2.catalog.file f.table with
    | .ok g => (g.pageCount s.2.volume).toNat
    | .error _ => 0
  known + (f.pageCount s.2.volume).toNat + 4 * (catalogued + s.2.cache.size + 4)

/-- **Inserts a row**, from wherever the insertion has come to: in as many steps
as it can take, or in at most so many. The page is not marked as changed. -/
def insert (f : HeapFile) (t : TxnId) (row : Tuple) (steps : Option Nat := none) :
    Inserting (Tuple × Page) := do
  f.insertFrom t row (steps.getD (f.insertionFuel (← get)))

/-- Refuses a row of another layout than the table's. -/
def checkLayout (f : HeapFile) (row : Tuple) : Except Fault Unit :=
  if row.schema.sameLayout f.schema then .ok () else .error (.mismatch (.tableLayout f.table))

end HeapFile

end Tablespace
